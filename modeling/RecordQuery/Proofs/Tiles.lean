import Mathlib.Logic.ExistsUnique
import RecordQuery.Proofs.Runs
import RecordQuery.Sql.Statement

/-!
# Pages tile a result

A page is skipped to and taken as exact integers say, both numbers being cut at the largest signed
word and nowhere before. Neither is negative, so a statement takes them over as they are. Of the
pages of one length each row before the cut is on exactly one.
-/

namespace RecordQuery

open Sql (Select Condition)

namespace Window

/-- The product is cut at the larger of the two bounds first, which makes no difference. -/
theorem toInt_skip (number limit : UInt64) :
    (saturate (saturatingMul (saturatingPred number) limit)).toInt =
      min (((number.toNat - 1) * limit.toNat : Nat) : Int) (2 ^ 63 - 1) := by
  rw [toInt_saturate, toNat_saturatingMul, toNat_saturatingPred]
  generalize (number.toNat - 1) * limit.toNat = rows
  omega

/-- The row, counted from zero, is among those that are taken after the skip. -/
def Shows (window : Window) (row : Nat) : Prop :=
  ∃ skip take : Int64, window.skipTake = (some skip, some take) ∧
    skip.toInt ≤ row ∧ row < skip.toInt + take.toInt

/-- Before the cut a page shows as many rows as its limit says, after those of the pages before. -/
theorem shows_page_iff (number limit : UInt64) {row : Nat} (hrow : row < 2 ^ 63 - 1) :
    (page number limit).Shows row ↔
      (number.toNat - 1) * limit.toNat ≤ row ∧
        row < (number.toNat - 1) * limit.toNat + limit.toNat := by
  have hshows : (page number limit).Shows row ↔
      (saturate (saturatingMul (saturatingPred number) limit)).toInt ≤ row ∧
        row < (saturate (saturatingMul (saturatingPred number) limit)).toInt +
          (saturate limit).toInt := by
    constructor
    · rintro ⟨skip, take, heq, hskip, htake⟩
      obtain ⟨rfl, rfl⟩ : _ = skip ∧ _ = take := by simpa [skipTake] using heq
      exact ⟨hskip, htake⟩
    · rintro ⟨hskip, htake⟩
      exact ⟨_, _, rfl, hskip, htake⟩
  rw [hshows, toInt_skip, toInt_saturate]
  generalize (number.toNat - 1) * limit.toNat = before
  -- a cut skip would be past the row, and a cut take reaches past it from any skip
  omega

/-- The page of a row is told by dividing. -/
theorem shows_page_iff_eq {number limit : UInt64} (hlimit : 1 ≤ limit) (hnumber : 1 ≤ number)
    {row : Nat} (hrow : row < 2 ^ 63 - 1) :
    (page number limit).Shows row ↔ number.toNat = row / limit.toNat + 1 := by
  have hpos : 0 < limit.toNat := UInt64.le_iff_toNat_le.mp hlimit
  have hone : 1 ≤ number.toNat := UInt64.le_iff_toNat_le.mp hnumber
  have hquotient : row / limit.toNat = number.toNat - 1 ↔
      (number.toNat - 1) * limit.toNat ≤ row ∧
        row < (number.toNat - 1) * limit.toNat + limit.toNat := by
    rw [Nat.div_eq_iff hpos]
    omega
  rw [shows_page_iff number limit hrow, ← hquotient]
  omega

/-- Among pages of at least one row, a row is shown by one. -/
theorem existsUnique_page {limit : UInt64} (hlimit : 1 ≤ limit) {row : Nat}
    (hrow : row < 2 ^ 63 - 1) :
    ∃! number : UInt64, 1 ≤ number ∧ (page number limit).Shows row := by
  have hquotient : row / limit.toNat ≤ row := Nat.div_le_self row limit.toNat
  have hnumber : (UInt64.ofNat (row / limit.toNat + 1)).toNat = row / limit.toNat + 1 :=
    UInt64.toNat_ofNat_of_lt' (by simp only [UInt64.size]; omega)
  have hone : 1 ≤ UInt64.ofNat (row / limit.toNat + 1) := by
    rw [UInt64.le_iff_toNat_le, hnumber]
    exact Nat.le_add_left 1 _
  refine ⟨.ofNat (row / limit.toNat + 1), ⟨hone, ?_⟩, ?_⟩
  · exact (shows_page_iff_eq hlimit hone hrow).mpr hnumber
  · rintro other ⟨hother, hshows⟩
    apply UInt64.toNat_inj.mp
    rw [(shows_page_iff_eq hlimit hother hrow).mp hshows, hnumber]

end Window

namespace Sql.Select

theorem rows_of_nonneg (key : String) {value : Int64} (h : 0 ≤ value.toInt) :
    rows key value = .ok value.toInt.toNat := by
  rw [rows, if_neg (Int.not_lt.mpr h)]

/-- Arguments without negative numbers are refused only for their condition. -/
theorem withArguments_of_nonneg (select : Select) {arguments : Arguments} {skip take : Int64}
    (hskip : arguments.skip = some skip) (htake : arguments.take = some take)
    (hskipped : 0 ≤ skip.toInt) (htaken : 0 ≤ take.toInt) :
    (∀ cause, (select.withArguments arguments).2 = .error cause ↔
      arguments.condition.mapM Condition.ofWhere = .error cause) ∧
    ((select.withArguments arguments).2 = .ok () →
      (select.withArguments arguments).1.offset = some skip.toInt.toNat ∧
        (select.withArguments arguments).1.limit = some take.toInt.toNat) := by
  have htakeRows : arguments.take.mapM (rows "take") = .ok (some take.toInt.toNat) := by
    rw [htake]
    exact congrArg (Except.map some) (rows_of_nonneg "take" htaken)
  have hskipRows : arguments.skip.mapM (rows "skip") = .ok (some skip.toInt.toNat) := by
    rw [hskip]
    exact congrArg (Except.map some) (rows_of_nonneg "skip" hskipped)
  cases hcondition : arguments.condition.mapM Condition.ofWhere with
  | error cause => simp [withArguments, hcondition]
  | ok condition => simp [withArguments, hcondition, htakeRows, hskipRows]

end Sql.Select

namespace Window

/-- The two numbers of a page are those of exact integers, cut at the largest signed word. A request
for a page, with a base condition or without, makes a statement skip and take these numbers,
whatever it did before, unless its condition is refused. Pages of one length, at least one row, have each row before the cut
on exactly one of them. -/
theorem pages_tile (limit : UInt64) :
    (∀ number : UInt64, ∃ skip take : Int64,
      (page number limit).skipTake = (some skip, some take) ∧
      skip.toInt = min (((max number.toNat 1 - 1) * limit.toNat : Nat) : Int) (2 ^ 63 - 1) ∧
      take.toInt = min (limit.toNat : Int) (2 ^ 63 - 1) ∧
      ∀ {σ : Type} (service : Service σ) (base : Option Fields) (options : Shorthand)
        (select : Select), options.window = some (page number limit) →
        let arguments := service.normalize base (.shorthand options)
        (∀ cause, (select.withArguments arguments).2 = .error cause ↔
          arguments.condition.mapM Condition.ofWhere = .error cause) ∧
        ((select.withArguments arguments).2 = .ok () →
          (select.withArguments arguments).1.offset = some skip.toInt.toNat ∧
            (select.withArguments arguments).1.limit = some take.toInt.toNat)) ∧
    (1 ≤ limit → ∀ row : Nat, row < 2 ^ 63 - 1 →
      ∃! number : UInt64, 1 ≤ number ∧ (page number limit).Shows row) := by
  refine ⟨fun number => ?_, fun hlimit row hrow => existsUnique_page hlimit hrow⟩
  have hpred : max number.toNat 1 - 1 = number.toNat - 1 := by omega
  have hskip := toInt_skip number limit
  have htake := toInt_saturate limit
  rw [hpred]
  refine ⟨_, _, rfl, hskip, htake, ?_⟩
  intro σ service base options select hwindow arguments
  apply select.withArguments_of_nonneg
  · simp [arguments, Service.normalize, Shorthand.compile, hwindow, skipTake]
  · simp [arguments, Service.normalize, Shorthand.compile, hwindow, skipTake]
  · rw [hskip]
    omega
  · rw [htake]
    omega

/-- Pages that are longer than a signed word can say: the first has all rows before the cut, and
the second makes a statement with another limit skip and take as many as there can be. -/
theorem pages_tile_beyond_signed_words :
    let limit : UInt64 := .ofNat (2 ^ 63)
    let row : Nat := 2 ^ 63 - 2
    let options : Shorthand := { window := some (page 2 limit) }
    let arguments := (Service.vacant none).normalize none (.shorthand options)
    let select : Select := { table := "user", limit := some 5 }
    1 ≤ limit ∧ row < 2 ^ 63 - 1 ∧
      (∃! number : UInt64, 1 ≤ number ∧ (page number limit).Shows row) ∧
      (select.withArguments arguments).1.offset = some (2 ^ 63 - 1) ∧
      (select.withArguments arguments).1.limit = some (2 ^ 63 - 1) := by
  intro limit row options arguments select
  have hlimit : 1 ≤ limit := by decide +kernel
  have hrow : row < 2 ^ 63 - 1 := by omega
  obtain ⟨hpages, htiles⟩ := pages_tile limit
  obtain ⟨skip, take, -, hskip, htake, hrequest⟩ := hpages 2
  obtain ⟨hrefused, htaken⟩ := hrequest (Service.vacant none) none options select rfl
  have hdone : (select.withArguments arguments).2 = .ok () := by
    cases houtcome : (select.withArguments arguments).2 with
    | error cause => cases (hrefused cause).mp houtcome
    | ok done => rfl
  obtain ⟨hoffset, hcount⟩ := htaken hdone
  have hskipped : skip.toInt = 2 ^ 63 - 1 := hskip.trans (by decide +kernel)
  have hlimited : take.toInt = 2 ^ 63 - 1 := htake.trans (by decide +kernel)
  refine ⟨hlimit, hrow, htiles hlimit row hrow, ?_, ?_⟩
  · rw [hoffset, hskipped]
    rfl
  · rw [hcount, hlimited]
    rfl

end Window

end RecordQuery
