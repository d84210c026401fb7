import BuildLog.Json.Display
import Mathlib.Algebra.Group.Nat.Defs

/-!
# Values that can be shown

A value is shown with all that is in it, so it takes a single part that is too much for it not to be shown.

* `Json.hasLongNumber`: a whole number with too many digits stands somewhere in a value;
* `Json.levels`: how many lists and objects stand inside each other, those without content not counted;
* `Json.exists_display_iff`: these two tell whether a value can be shown.
-/

namespace BuildLog.Json

/-! ## What a value holds -/

mutual

/-- Whether a whole number with too many digits stands somewhere in a value. -/
def hasLongNumber : Json → Bool
  | int value => 10 ^ Text.digitLimit ≤ value.natAbs
  | array items => hasLongItem items
  | object members => hasLongMember members
  | _ => false

/-- Whether such a number stands somewhere in one of the items. -/
def hasLongItem : List Json → Bool
  | [] => false
  | item :: items => item.hasLongNumber || hasLongItem items

/-- Whether such a number stands somewhere in the value of one of the members. -/
def hasLongMember : List (Text × Json) → Bool
  | [] => false
  | (_, value) :: members => value.hasLongNumber || hasLongMember members

end

mutual

/-- How many lists and objects stand inside each other in a value, those without content not counted. -/
def levels : Json → Nat
  | array (item :: items) => max item.levels (itemLevels items) + 1
  | object ((_, value) :: members) => max value.levels (memberLevels members) + 1
  | _ => 0

/-- How many stand inside each other in the items. -/
def itemLevels : List Json → Nat
  | [] => 0
  | item :: items => max item.levels (itemLevels items)

/-- How many stand inside each other in the values of the members. -/
def memberLevels : List (Text × Json) → Nat
  | [] => 0
  | (_, value) :: members => max value.levels (memberLevels members)

end

/-! ## What can be shown -/

/-- A whole number is shown exactly if it is less than the first one with too many digits. -/
theorem exists_displayInt_iff (value : Int) :
    (∃ text, displayInt value = .ok text) ↔ value.natAbs < 10 ^ Text.digitLimit := by
  have hdigits : (Text.ofNat value.natAbs).length ≤ Text.digitLimit ↔
      value.natAbs < 10 ^ Text.digitLimit :=
    Nat.length_toDigits_le_iff (by decide) (by decide)
  rw [← hdigits, displayInt]
  split
  · rename_i hlong
    exact iff_of_false nofun (Nat.not_le.2 hlong)
  · rename_i hshort
    exact iff_of_true ⟨_, rfl⟩ (Nat.not_lt.1 hshort)

/-- What is put together from two parts can be shown if both parts can. -/
theorem exists_both_iff {first second : Except ShowingFault Text} (join : Text → Text → Text) :
    (∃ text, (do let a ← first; let b ← second; return join a b) = .ok text) ↔
      (∃ text, first = .ok text) ∧ ∃ text, second = .ok text := by
  cases first with
  | error fault => exact iff_of_false nofun (fun h => nomatch h.1)
  | ok a =>
    cases second with
    | error fault => exact iff_of_false nofun (fun h => nomatch h.2)
    | ok b => exact iff_of_true ⟨_, rfl⟩ ⟨⟨a, rfl⟩, b, rfl⟩

mutual

/-- Inside a list, a value is shown exactly if there is room for its levels and no number is too long. -/
theorem exists_displayInner_iff (room : Nat) : ∀ value : Json,
    (∃ text, displayInner room value = .ok text) ↔
      value.hasLongNumber = false ∧ value.levels ≤ room
  | null => by simp [displayInner, hasLongNumber, levels]
  | bool true => by simp [displayInner, hasLongNumber, levels]
  | bool false => by simp [displayInner, hasLongNumber, levels]
  | int value => by
    rw [displayInner, exists_displayInt_iff]
    simp [hasLongNumber, levels]
  | double value => by simp [displayInner, hasLongNumber, levels]
  | string value => by simp [displayInner, hasLongNumber, levels]
  | array [] => by simp [displayInner, hasLongNumber, hasLongItem, levels]
  | object [] => by simp [displayInner, hasLongNumber, hasLongMember, levels]
  | array (item :: items) => by
    cases room with
    | zero => simp [displayInner, levels]
    | succ room =>
      rw [displayInner, exists_both_iff fun a b => '[' :: a ++ b ++ [']'],
        exists_displayInner_iff room item, exists_displayItems_iff room items, hasLongNumber,
        hasLongItem, levels, Bool.or_eq_false_iff, Nat.succ_le_succ_iff, Nat.max_le]
      exact and_and_and_comm
  | object ((name, value) :: members) => by
    cases room with
    | zero => simp [displayInner, levels]
    | succ room =>
      rw [displayInner, exists_both_iff fun a b =>
          '{' :: quotedVisible name ++ [':', ' '] ++ a ++ b ++ ['}'],
        exists_displayInner_iff room value, exists_displayMembers_iff room members, hasLongNumber,
        hasLongMember, levels, Bool.or_eq_false_iff, Nat.succ_le_succ_iff, Nat.max_le]
      exact and_and_and_comm

/-- So it is for the items behind the first one. -/
theorem exists_displayItems_iff (room : Nat) : ∀ items : List Json,
    (∃ text, displayItems room items = .ok text) ↔
      hasLongItem items = false ∧ itemLevels items ≤ room
  | [] => by simp [displayItems, hasLongItem, itemLevels]
  | item :: items => by
    rw [displayItems, exists_both_iff fun a b => ',' :: ' ' :: a ++ b,
      exists_displayInner_iff room item, exists_displayItems_iff room items, hasLongItem, itemLevels,
      Bool.or_eq_false_iff, Nat.max_le]
    exact and_and_and_comm

/-- And for the members behind the first one. -/
theorem exists_displayMembers_iff (room : Nat) : ∀ members : List (Text × Json),
    (∃ text, displayMembers room members = .ok text) ↔
      hasLongMember members = false ∧ memberLevels members ≤ room
  | [] => by simp [displayMembers, hasLongMember, memberLevels]
  | (name, value) :: members => by
    rw [displayMembers, exists_both_iff fun a b =>
        ',' :: ' ' :: quotedVisible name ++ [':', ' '] ++ a ++ b,
      exists_displayInner_iff room value, exists_displayMembers_iff room members, hasLongMember,
      memberLevels, Bool.or_eq_false_iff, Nat.max_le]
    exact and_and_and_comm

end

/-- **Which values can be shown.** A value can be shown exactly if all whole numbers in it are short
enough, and there is room for the lists and objects that stand inside each other in it. -/
theorem exists_display_iff (room : Nat) (value : Json) :
    (∃ text, value.display room = .ok text) ↔
      value.hasLongNumber = false ∧ value.levels ≤ room := by
  cases value with
  | string text => simp [display, hasLongNumber, levels]
  | _ => exact exists_displayInner_iff room _

end BuildLog.Json
