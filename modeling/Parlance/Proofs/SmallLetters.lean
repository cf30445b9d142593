import Mathlib.Data.List.Infix
import Mathlib.Data.Char
import Parlance.Text.Blank
import Parlance.Text.Digit
import Parlance.Text.Letter
import Parlance.Text.Lowercase

/-!
Small letters and white space. A word keeps no white space when it is written in small letters. The
small letters of a text depend on the text around it only in the form of a sigma; so whether they
end in a digit, or in a word without a sigma, is settled by the end of the text.
-/

namespace Parlance.Text

open List

/-! ### Visible characters -/

/-- Whether no code point is in a range of both tables. -/
def apart (ranges others : List (Nat × Nat)) : Bool :=
  ranges.all fun range => others.all fun other =>
    Nat.blt range.2 other.1 || Nat.blt other.2 range.1

variable {point : Nat} {c : Char} {cs small : List Char}

theorem inRanges_of_apart {ranges others : List (Nat × Nat)} (disjoint : apart ranges others = true)
    (member : inRanges ranges point = true) : inRanges others point = false := by
  obtain ⟨range, listed, within⟩ := any_eq_true.mp member
  refine any_eq_false.mpr fun other among inside => ?_
  have separate := all_eq_true.mp (all_eq_true.mp disjoint range listed) other among
  simp only [Bool.or_eq_true, Nat.blt_eq, Bool.and_eq_true, decide_eq_true_eq]
    at separate within inside
  omega

theorem isBlank_of_small (small : c.toNat < 128) (visible : 32 < c.toNat) : isBlank c = false := by
  simp [isBlank, inRanges, blankRanges]
  omega

theorem isBlank_of_isLetterOrNumeral (member : isLetterOrNumeral c = true) : isBlank c = false := by
  unfold isLetterOrNumeral at member
  split at member
  case isTrue small =>
    refine isBlank_of_small small ?_
    change ((decide (65 ≤ c.val ∧ c.val ≤ 90) ||
      (decide (97 ≤ c.val) && decide (c.val ≤ 122))) ||
        (decide (48 ≤ c.val) && decide (c.val ≤ 57))) = true at member
    simp only [Bool.or_eq_true, Bool.and_eq_true, decide_eq_true_eq, UInt32.le_iff_toNat_le]
      at member
    change ((65 ≤ c.toNat ∧ c.toNat ≤ 90) ∨ (97 ≤ c.toNat ∧ c.toNat ≤ 122)) ∨
      (48 ≤ c.toNat ∧ c.toNat ≤ 57) at member
    omega
  case isFalse =>
    rcases Bool.or_eq_true_iff.mp member with letter | numeral
    · exact inRanges_of_apart (by decide +kernel) letter
    · exact inRanges_of_apart (by decide +kernel) numeral

theorem isBlank_of_isDecimal (member : isDecimal c = true) : isBlank c = false := by
  unfold isDecimal decimalValue? at member
  split at member
  case isTrue small =>
    refine isBlank_of_small small ?_
    split at member
    case isTrue digit =>
      simp only [Char.isDigit, Bool.and_eq_true, decide_eq_true_eq, UInt32.le_iff_toNat_le,
        ge_iff_le] at digit
      change 48 ≤ c.toNat ∧ c.toNat ≤ 57 at digit
      omega
    case isFalse => cases member
  case isFalse =>
    rw [Option.isSome_map, List.find?_isSome] at member
    have listed : inRanges decimalRanges c.toNat = true := any_eq_true.mpr member
    exact inRanges_of_apart (by decide +kernel) listed

/-- The runs of capitals have no small letters among white space. -/
theorem lowercaseRuns_isBlank : (lowercaseRuns.all fun run => blankRanges.all fun blank =>
    decide (0 < blank.1 ∧
      ((run.2.1 : Int) + run.2.2.2 < blank.1 ∨ (blank.2 : Int) < run.1 + run.2.2.2))) = true := by
  decide +kernel

theorem toNat_toLower (c : Char) :
    c.toLower.toNat = if 65 ≤ c.toNat ∧ c.toNat ≤ 90 then c.toNat + 32 else c.toNat := by
  unfold Char.toLower
  split
  case isTrue capital =>
    have bounds : 65 ≤ c.toNat ∧ c.toNat ≤ 90 := capital
    rw [if_pos bounds]
    show (c.val + ('a'.val - 'A'.val)).toNat = c.toNat + 32
    rw [UInt32.toNat_add]
    exact Nat.mod_eq_of_lt (Nat.lt_of_le_of_lt (Nat.add_le_add_right bounds.2 32) (by decide))
  case isFalse small =>
    have other : ¬(65 ≤ c.toNat ∧ c.toNat ≤ 90) := small
    rw [if_neg other]

theorem isBlank_toLower (visible : isBlank c = false) : isBlank c.toLower = false := by
  have lower := toNat_toLower c
  split at lower
  · exact isBlank_of_small (by omega) (by omega)
  · rwa [Char.toNat_inj.mp lower]

theorem toNat_ofNat_cases (point : Nat) :
    (Char.ofNat point).toNat = point ∨ (Char.ofNat point).toNat = 0 := by
  by_cases valid : point.isValidChar
  · rw [Char.ofNat, dif_pos valid]
    exact .inl rfl
  · rw [Char.ofNat, dif_neg valid]
    exact .inr rfl

theorem isBlank_ofNat (visible : inRanges blankRanges point = false) :
    isBlank (Char.ofNat point) = false := by
  rcases toNat_ofNat_cases point with same | same
  · rwa [isBlank, same]
  · rw [isBlank, same]
    decide

theorem isBlank_lowercaseChar {small : Char} (visible : isBlank c = false)
    (member : small ∈ lowercaseChar c) : isBlank small = false := by
  unfold lowercaseChar at member
  split at member
  · rw [mem_singleton.mp member]
    exact isBlank_toLower visible
  · split at member
    · simp only [mem_cons, not_mem_nil, or_false] at member
      rcases member with rfl | rfl <;> decide
    · split at member
      case h_1 run found =>
        rw [mem_singleton.mp member]
        have listed := mem_of_find?_eq_some found
        have within := List.find?_some found
        simp only [Bool.and_eq_true, decide_eq_true_eq] at within
        refine isBlank_ofNat (any_eq_false.mpr fun blank among inside => ?_)
        have separate := all_eq_true.mp
          (all_eq_true.mp lowercaseRuns_isBlank run listed) blank among
        simp only [Bool.and_eq_true, decide_eq_true_eq] at inside separate
        omega
      case h_2 =>
        rw [mem_singleton.mp member]
        exact visible

/-! ### Small letters with what stands around them -/

def plainSigma (c : Char) : Char := if c.toNat = 962 then Char.ofNat 963 else c

/-- The small letters of a character, with the sigma in its plain form. -/
def smallForms (c : Char) : List Char :=
  (if c.toNat = 931 then [Char.ofNat 963] else lowercaseChar c).map plainSigma

/-- Apart from the form of a sigma, small letters do not depend on what stands around them. -/
theorem map_plainSigma_lowercaseAfter (before cs : List Char) :
    (lowercaseAfter before cs).map plainSigma = cs.flatMap smallForms := by
  induction cs generalizing before with
  | nil => rfl
  | cons c rest ih =>
    rw [lowercaseAfter, map_append, ih, flatMap_cons]
    congr 1
    unfold smallForms
    split
    · split <;> rfl
    · rfl

theorem isBlank_plainSigma (c : Char) : isBlank (plainSigma c) = isBlank c := by
  unfold plainSigma
  split
  case isTrue sigma =>
    rw [← Char.ofNat_toNat c, sigma]
    decide
  case isFalse => rfl

theorem isBlank_smallForms {small : Char} (visible : isBlank c = false)
    (member : small ∈ smallForms c) : isBlank small = false := by
  obtain ⟨form, among, rfl⟩ := mem_map.mp member
  rw [isBlank_plainSigma]
  split at among
  · rw [mem_singleton.mp among]
    decide
  · exact isBlank_lowercaseChar visible among

/-- What is written after a text stands after its small letters. -/
theorem exists_lowercaseAfter_append (before cs rest : List Char) :
    ∃ small, lowercaseAfter before (cs ++ rest) =
      small ++ lowercaseAfter (cs.reverse ++ before) rest := by
  induction cs generalizing before with
  | nil => exact ⟨[], rfl⟩
  | cons c others ih =>
    obtain ⟨small, same⟩ := ih (c :: before)
    rw [cons_append, lowercaseAfter, same, reverse_cons, append_assoc others.reverse]
    exact ⟨_, (append_assoc _ _ _).symm⟩

theorem exists_lowercaseChars_space (visible : ∀ c ∈ cs, isBlank c = false) :
    ∃ small, lowercaseChars (cs ++ [' ']) = small ++ [' '] ∧
      small.map plainSigma = cs.flatMap smallForms ∧ ∀ c ∈ small, isBlank c = false := by
  obtain ⟨small, same⟩ := exists_lowercaseAfter_append [] cs [' ']
  have forms := map_plainSigma_lowercaseAfter [] (cs ++ [' '])
  rw [same, map_append, flatMap_append] at forms
  have plain : small.map plainSigma = cs.flatMap smallForms := append_inj_left' forms rfl
  refine ⟨small, same, plain, fun c member => ?_⟩
  have form : plainSigma c ∈ cs.flatMap smallForms := plain ▸ mem_map_of_mem member
  obtain ⟨source, among, inside⟩ := mem_flatMap.mp form
  rw [← isBlank_plainSigma]
  exact isBlank_smallForms (visible source among) inside

theorem length_smallForms_pos (c : Char) : 0 < (smallForms c).length := by
  unfold smallForms lowercaseChar
  rw [length_map]
  repeat' split
  all_goals exact Nat.zero_lt_succ _

theorem length_le_flatMap_smallForms (cs : List Char) :
    cs.length ≤ (cs.flatMap smallForms).length := by
  induction cs with
  | nil => exact Nat.le_refl _
  | cons c rest ih =>
    rw [flatMap_cons, length_append, length_cons]
    have := length_smallForms_pos c
    omega

/-! ### Texts that end in a count -/

/-- Whether a text in small letters ends in a digit or in `repeat`. -/
def endsInCount (small : List Char) : Bool :=
  small.getLast?.any Char.isDigit || "repeat".toList.isSuffixOf small

theorem endsInCount_congr {one other : List Char}
    (last : one.getLast?.any Char.isDigit = other.getLast?.any Char.isDigit)
    (word : "repeat".toList <:+ one ↔ "repeat".toList <:+ other) :
    endsInCount one = endsInCount other := by
  rw [endsInCount, endsInCount, last]
  refine congrArg _ (Bool.eq_iff_iff.mpr ?_)
  rw [isSuffixOf_iff_suffix, isSuffixOf_iff_suffix]
  exact word

theorem isDigit_plainSigma (c : Char) : (plainSigma c).isDigit = c.isDigit := by
  unfold plainSigma
  split
  case isTrue sigma =>
    rw [← Char.ofNat_toNat c, sigma]
    decide
  case isFalse => rfl

theorem eq_of_plainSigma_eq {other : Char} (plain : other.toNat < 962)
    (same : plainSigma c = other) : c = other := by
  unfold plainSigma at same
  split at same
  · subst same
    exact absurd plain (by decide)
  · exact same

theorem eq_of_map_plainSigma_eq {others : List Char} (plain : ∀ c ∈ others, c.toNat < 962)
    (same : cs.map plainSigma = others) : cs = others := by
  induction cs generalizing others with
  | nil => exact same
  | cons c rest ih =>
    subst same
    obtain ⟨here, later⟩ := forall_mem_cons.mp plain
    exact congrArg₂ List.cons (eq_of_plainSigma_eq here rfl) (ih later rfl)

/-- The form of a sigma does not matter for a count. -/
theorem endsInCount_map_plainSigma (small : List Char) :
    endsInCount (small.map plainSigma) = endsInCount small := by
  refine endsInCount_congr ?_ ⟨?_, ?_⟩
  · rw [List.getLast?_map, Option.any_map]
    exact congrArg (Option.any · _) (funext isDigit_plainSigma)
  · rintro ⟨front, whole⟩
    obtain ⟨first, last, rfl, _, same⟩ := map_eq_append_iff.mp whole.symm
    have plain : ("repeat".toList.all fun c => decide (c.toNat < 962)) = true := by decide
    rw [eq_of_map_plainSigma_eq
      (fun c member => of_decide_eq_true (all_eq_true.mp plain c member)) same]
    exact suffix_append first _
  · rintro ⟨front, rfl⟩
    exact ⟨front.map plainSigma, by rw [map_append]; rfl⟩

/-- Only the end of a text matters for a count. -/
theorem endsInCount_append {front : List Char} (long : front = [] ∨ 6 ≤ small.length) :
    endsInCount (front ++ small) = endsInCount small := by
  rcases long with rfl | long
  · rfl
  · refine endsInCount_congr (congrArg (Option.any _) (List.getLast?_append_of_ne_nil front
      (ne_nil_of_length_pos (by omega)))) ⟨fun whole => ?_, fun suffix => ?_⟩
    · exact suffix_of_suffix_length_le whole (suffix_append front small) long
    · exact suffix.trans (suffix_append front small)

/-- Small letters of the first 128 code points are as many as the letters. -/
theorem length_of_lowercaseAfter {before : List Char} (plain : ∀ c ∈ small, c.toNat < 128)
    (same : lowercaseAfter before cs = small) : cs.length = small.length := by
  induction cs generalizing before small with
  | nil =>
    rw [← same]
    rfl
  | cons c rest ih =>
    rw [lowercaseAfter] at same
    have one : (if c.toNat = 931 then
        [Char.ofNat (if meetsCased before && !meetsCased rest then 962 else 963)]
        else lowercaseChar c).length = 1 := by
      split
      · rfl
      · rename_i noSigma
        rw [if_neg noSigma] at same
        unfold lowercaseChar at same ⊢
        split
        · rfl
        · rename_i large
          split
          · rename_i dotted
            rw [if_neg large, if_pos dotted] at same
            have dot : Char.ofNat 775 ∈ small := by
              rw [← same]
              exact mem_append_left _ (mem_cons_of_mem _ (mem_singleton_self _))
            exact absurd (plain _ dot) (by decide)
          · split <;> rfl
    rw [← same] at plain
    rw [← same, length_append, one, length_cons, Nat.add_comm,
      ih (fun small member => plain small (mem_append_right _ member)) rfl]

end Parlance.Text
