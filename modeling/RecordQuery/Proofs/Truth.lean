/-!
# Three truth values

A comparison with null is neither true nor false. Conjunction, disjunction and negation treat that
third value as a truth value that is not known yet. A verdict is the truth value of a condition that
may have been refused; a conjunction is refused when one of its parts is.
-/

namespace RecordQuery

inductive Truth where
  | fails
  | unknown
  | holds
  deriving DecidableEq, Repr

namespace Truth

def ofBool : Bool → Truth
  | true => holds
  | false => fails

def not : Truth → Truth
  | fails => holds
  | unknown => unknown
  | holds => fails

def and : Truth → Truth → Truth
  | holds, other => other
  | fails, _ => fails
  | unknown, fails => fails
  | unknown, _ => unknown

def or : Truth → Truth → Truth
  | fails, other => other
  | holds, _ => holds
  | unknown, holds => holds
  | unknown, _ => unknown

/-- All of some values hold; of none, that holds. -/
def all (values : List Truth) : Truth := values.foldr and holds

/-- Any of some values holds; of none, that fails. -/
def any (values : List Truth) : Truth := values.foldr or fails

@[simp] theorem not_not (a : Truth) : a.not.not = a := by cases a <;> rfl

@[simp] theorem holds_and (a : Truth) : holds.and a = a := rfl

@[simp] theorem and_holds (a : Truth) : a.and holds = a := by cases a <;> rfl

@[simp] theorem or_fails (a : Truth) : a.or fails = a := by cases a <;> rfl

theorem and_comm (a b : Truth) : a.and b = b.and a := by cases a <;> cases b <;> rfl

theorem and_assoc (a b c : Truth) : (a.and b).and c = a.and (b.and c) := by
  cases a <;> cases b <;> cases c <;> rfl

@[simp] theorem and_self (a : Truth) : a.and a = a := by cases a <;> rfl

theorem and_eq_holds (a b : Truth) : a.and b = holds ↔ a = holds ∧ b = holds := by
  cases a <;> cases b <;> decide

theorem and_eq_fails (a b : Truth) : a.and b = fails ↔ a = fails ∨ b = fails := by
  cases a <;> cases b <;> decide

@[simp] theorem not_eq_holds (a : Truth) : a.not = holds ↔ a = fails := by cases a <;> decide

@[simp] theorem not_eq_fails (a : Truth) : a.not = fails ↔ a = holds := by cases a <;> decide

theorem ofBool_not (b : Bool) : ofBool (!b) = (ofBool b).not := by cases b <;> rfl

theorem ofBool_eq_holds (b : Bool) : ofBool b = holds ↔ b = true := by cases b <;> decide

@[simp] theorem all_nil : all [] = holds := rfl

@[simp] theorem all_cons (a : Truth) (rest : List Truth) : all (a :: rest) = a.and (all rest) :=
  rfl

@[simp] theorem all_append (values more : List Truth) :
    all (values ++ more) = (all values).and (all more) := by
  induction values with
  | nil => simp
  | cons a rest ih => simp [ih, and_assoc]

@[simp] theorem any_nil : any [] = fails := rfl

@[simp] theorem any_cons (a : Truth) (rest : List Truth) : any (a :: rest) = a.or (any rest) :=
  rfl

end Truth

/-- The truth value of a condition, or nothing for a condition that is refused. -/
abbrev Verdict := Option Truth

namespace Verdict

def and : Verdict → Verdict → Verdict
  | some a, some b => some (a.and b)
  | _, _ => none

def all (values : List Verdict) : Verdict := values.foldr and (some .holds)

@[simp] theorem some_and_some (a b : Truth) : and (some a) (some b) = some (a.and b) := rfl

@[simp] theorem none_and (a : Verdict) : and none a = none := rfl

@[simp] theorem and_none (a : Verdict) : and a none = none := by cases a <;> rfl

@[simp] theorem holds_and (a : Verdict) : and (some .holds) a = a := by cases a <;> rfl

@[simp] theorem and_holds (a : Verdict) : and a (some .holds) = a := by cases a <;> simp

theorem and_comm (a b : Verdict) : and a b = and b a := by
  cases a <;> cases b <;> simp [Truth.and_comm]

theorem and_assoc (a b c : Verdict) : and (and a b) c = and a (and b c) := by
  cases a <;> cases b <;> cases c <;> simp [Truth.and_assoc]

@[simp] theorem and_self (a : Verdict) : and a a = a := by cases a <;> simp

theorem and_left_comm (a b c : Verdict) : and a (and b c) = and b (and a c) := by
  rw [← and_assoc, and_comm a b, and_assoc]

theorem and_eq_holds (a b : Verdict) :
    and a b = some .holds ↔ a = some .holds ∧ b = some .holds := by
  cases a <;> cases b <;> simp [Truth.and_eq_holds]

@[simp] theorem all_nil : all [] = some .holds := rfl

@[simp] theorem all_cons (a : Verdict) (rest : List Verdict) : all (a :: rest) = and a (all rest) :=
  rfl

@[simp] theorem all_append (values more : List Verdict) :
    all (values ++ more) = and (all values) (all more) := by
  induction values with
  | nil => simp
  | cons a rest ih => simp [ih, and_assoc]

theorem all_perm {values more : List Verdict} (h : values.Perm more) : all values = all more := by
  induction h with
  | nil => rfl
  | cons a _ ih => simp [ih]
  | swap a b rest => simp [and_left_comm]
  | trans _ _ ih ih' => exact ih.trans ih'

theorem all_eq_holds (values : List Verdict) :
    all values = some .holds ↔ ∀ a ∈ values, a = some .holds := by
  induction values with
  | nil => simp
  | cons a rest ih => simp [and_eq_holds, ih]

theorem isSome_and (a b : Verdict) : (and a b).isSome = (a.isSome && b.isSome) := by
  cases a <;> cases b <;> rfl

theorem isSome_all (values : List Verdict) :
    (all values).isSome = true ↔ ∀ a ∈ values, a.isSome = true := by
  induction values with
  | nil => simp
  | cons a rest ih => simp [isSome_and, ih]

end Verdict

end RecordQuery
