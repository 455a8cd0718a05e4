import RecordQuery.Decode

/-!
# Windows on a result

A window is a page of a given length, counted from one, or the numbers of rows to skip and to take.
A page becomes a skip and a take in two saturating steps: the product stays in unsigned words, and
both numbers stay in signed ones.
-/

namespace RecordQuery

inductive Window where
  | page (number limit : UInt64)
  | offset (skip take : Option Int64)
  deriving DecidableEq, Repr, Inhabited

namespace Window

/-- The product, or the largest word when it is beyond that. -/
def saturatingMul (a b : UInt64) : UInt64 := .ofNat (min (a.toNat * b.toNat) (2 ^ 64 - 1))

/-- The number before, zero having none. -/
def saturatingPred (n : UInt64) : UInt64 := if n = 0 then 0 else n - 1

/-- The number as a signed word, or the largest signed word when it is beyond that. -/
def saturate (n : UInt64) : Int64 := .ofNat (min n.toNat (2 ^ 63 - 1))

theorem toNat_saturatingMul (a b : UInt64) :
    (saturatingMul a b).toNat = min (a.toNat * b.toNat) (2 ^ 64 - 1) := by
  unfold saturatingMul
  rw [UInt64.toNat_ofNat_of_lt']
  simp only [UInt64.size]
  omega

theorem toNat_saturatingPred (n : UInt64) : (saturatingPred n).toNat = n.toNat - 1 := by
  unfold saturatingPred
  split
  · simp_all
  · next h =>
    have hn : n.toNat ≠ 0 := fun hz => h (UInt64.toNat_inj.1 hz)
    rw [UInt64.toNat_sub_of_le _ _ (UInt64.le_iff_toNat_le.2 (by simp; omega))]
    simp

theorem toInt_saturate (n : UInt64) : (saturate n).toInt = min (n.toNat : Int) (2 ^ 63 - 1) := by
  unfold saturate
  rw [Int64.toInt_ofNat_of_lt (by omega)]
  omega

/-- The numbers of rows to skip and to take. Page zero is the first page. -/
def skipTake : Window → Option Int64 × Option Int64
  | page number limit =>
    (some (saturate (saturatingMul (saturatingPred number) limit)), some (saturate limit))
  | offset skip take => (skip, take)

def toJson : Window → Json
  | page number limit => .obj [("limit", .int limit.toNat), ("page", .int number.toNat)]
  | offset skip take => .obj (Entries.ofList
      ([("skip", skip), ("take", take)].filterMap fun (key, n) => n.map (key, .int ·.toInt)))

def pageShape : RecordShape (UInt64 × UInt64) where
  name := "Page"
  fields := [
    ("page", fun doc window => do return (← doc.unsigned, window.2)),
    ("limit", fun doc window => do return (window.1, ← doc.unsigned))]
  required := ["page", "limit"]
  blank := (0, 0)

def offsetShape : RecordShape (Option Int64 × Option Int64) where
  name := "Offset"
  fields := [
    ("skip", fun doc window => do return (← doc.optional Doc.signed, window.2)),
    ("take", fun doc window => do return (window.1, ← doc.optional Doc.signed))]
  blank := (none, none)

/-- Reads a window from an object, as a page if it has the form of one and else as an offset. The
object is read to its end before either form is tried. -/
def decode (doc : Doc) : Decode Window := do
  let _ ← doc.value
  match doc with
  | .obj entries stop =>
    match pageShape.decodeEntries entries stop, offsetShape.decodeEntries entries stop with
    | .ok (number, limit), _ => return page number limit
    | .error _, .ok (skip, take) => return offset skip take
    | .error _, .error _ => throw .noWindow
  | _ => throw .noWindow

end Window

end RecordQuery
