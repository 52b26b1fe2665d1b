import HalfDuplex.Text.Blank
import HalfDuplex.Text.Numeral
import Mathlib.Data.List.DropRight
import Mathlib.Data.List.Forall2

/-!
# Texts that people type

A setting is typed with blanks around it, in letters of any case, and a count may have a plus sign
and zeros in front.  The three relations below say what such a text is, without the functions that
read it, and each reader is proved to decide its relation.

* `Text.fromUTF8?_eq_some_iff` : bytes are read as the text of which they are the bytes.
* `Text.Trims` : a text without the blanks at its ends.  `Text.trim_eq_iff` : `trim` finds it.
* `Text.Cased` : a word, some of its letters in upper case.  `Text.asciiLower_eq_iff` :
  `asciiLower` finds the word.
* `Numeral.Writes` : a sign, if any, and digits of a value.  `Numeral.read_eq_ok_iff` :
  `Numeral.read` finds the value, if it keeps the limit.
-/

namespace HalfDuplex

namespace Text

/-! ### Bytes -/

theorem fromUTF8?_eq_some_iff {bytes : ByteArray} {s : String} :
    String.fromUTF8? bytes = some s ↔ bytes = s.toUTF8 := by
  rw [String.fromUTF8?]
  split
  next hvalid =>
    rw [Option.some.injEq]
    exact ⟨fun h => h ▸ rfl, fun h => by subst h; rfl⟩
  next hvalid =>
    refine ⟨nofun, fun h => absurd ?_ hvalid⟩
    exact h ▸ s.isValidUTF8

/-! ### Blanks at the ends -/

/-- `t` is `s` without the blanks at its ends. -/
structure Trims (s t : String) : Prop where
  /-- What `s` has besides `t` is blank and at its ends. -/
  ends : ∃ front back, s.toList = front ++ t.toList ++ back ∧
    (∀ c ∈ front, isBlank c = true) ∧ ∀ c ∈ back, isBlank c = true
  /-- No blank is left in front. -/
  first : ∀ ht : t.toList ≠ [], isBlank (t.toList.head ht) = false
  /-- No blank is left behind. -/
  last : ∀ ht : t.toList ≠ [], isBlank (t.toList.getLast ht) = false

theorem toList_trim (s : String) :
    (trim s).toList = (s.toList.dropWhile isBlank).rdropWhile isBlank := by
  rw [trim, String.toList_ofList, List.rdropWhile]

theorem dropWhile_of_head {l : List Char} (h : ∀ hl : l ≠ [], isBlank (l.head hl) = false) :
    l.dropWhile isBlank = l := by
  cases l with
  | nil => rfl
  | cons c l => exact List.dropWhile_cons_of_neg (by simpa using h (List.cons_ne_nil c l))

theorem trims_trim (s : String) : Trims s (trim s) where
  ends := by
    refine ⟨s.toList.takeWhile isBlank, (s.toList.dropWhile isBlank).rtakeWhile isBlank, ?_,
      fun c => List.mem_takeWhile_imp, fun c => List.mem_rtakeWhile_imp⟩
    rw [toList_trim, List.append_assoc, List.rdropWhile_append_rtakeWhile,
      List.takeWhile_append_dropWhile]
  first ht := by
    simp only [toList_trim] at ht ⊢
    have hkept := List.rdropWhile_prefix isBlank (s.toList.dropWhile isBlank)
    have hdrop : s.toList.dropWhile isBlank ≠ [] := fun hnil => ht (by rw [hnil]; rfl)
    rw [hkept.head ht]
    simpa using List.head_dropWhile_not isBlank hdrop
  last ht := by
    simp only [toList_trim] at ht ⊢
    simpa using List.rdropWhile_last_not isBlank _ ht

theorem Trims.trim_eq {s t : String} (h : Trims s t) : trim s = t := by
  obtain ⟨front, back, hs, hfront, hback⟩ := h.ends
  apply String.ext
  rw [toList_trim, hs, List.append_assoc, List.dropWhile_append_of_pos hfront]
  by_cases ht : t.toList = []
  · -- nothing but blanks: both ends are dropped at once
    rw [ht, List.nil_append, List.dropWhile_eq_nil_iff.2 hback, List.rdropWhile_nil]
  · have hhead : (t.toList ++ back).dropWhile isBlank = t.toList ++ back := by
      refine dropWhile_of_head fun hne => ?_
      rw [List.head_append_of_ne_nil ht]
      exact h.first ht
    rw [hhead, List.rdropWhile, List.reverse_append,
      List.dropWhile_append_of_pos (by simpa using hback), ← List.rdropWhile]
    exact List.rdropWhile_eq_self_iff.2 fun hne => by simpa using h.last hne

/-- Trimming finds the text without its blank ends. -/
theorem trim_eq_iff {s t : String} : trim s = t ↔ Trims s t :=
  ⟨fun h => h ▸ trims_trim s, Trims.trim_eq⟩

/-! ### Words in letters of any case -/

/-- `c` is a letter from A to Z. -/
def IsCapital (c : Char) : Prop := 'A' ≤ c ∧ c ≤ 'Z'

/-- `s` is `word`, some of its letters a to z in upper case. -/
def Cased (s word : String) : Prop :=
  List.Forall₂ (fun c d => c = d ∨ IsCapital c ∧ c.toNat + 32 = d.toNat) s.toList word.toList

theorem toNat_toLower {c : Char} (hc : IsCapital c) : c.toLower.toNat = c.toNat + 32 := by
  have hle : c.toNat ≤ 90 := hc.2
  have hval : c.toLower.val = c.val + 32 := congrArg Char.val (dif_pos hc)
  change c.toLower.val.toNat = c.val.toNat + 32
  rw [hval, UInt32.toNat_add]
  exact Nat.mod_eq_of_lt (by change c.toNat + 32 < _; omega)

theorem toLower_of_not_isCapital {c : Char} (hc : ¬ IsCapital c) : c.toLower = c :=
  dif_neg hc

theorem toLower_eq_iff {c d : Char} (hd : ¬ IsCapital d) :
    c.toLower = d ↔ c = d ∨ IsCapital c ∧ c.toNat + 32 = d.toNat := by
  by_cases hc : IsCapital c
  · have hne : c ≠ d := fun h => hd (h ▸ hc)
    rw [← Char.toNat_inj, toNat_toLower hc]
    simp [hne, hc]
  · simp [toLower_of_not_isCapital hc, hc]

/-- Lowering finds the word that a text is up to the case of the letters A to Z. -/
theorem asciiLower_eq_iff {s word : String} (hword : ∀ d ∈ word.toList, ¬ IsCapital d) :
    asciiLower s = word ↔ Cased s word := by
  rw [← String.toList_inj, asciiLower, String.toList_ofList, Cased, ← List.forall₂_eq_eq_eq,
    List.forall₂_map_left_iff, List.forall₂_iff_zip, List.forall₂_iff_zip]
  refine and_congr_right fun _ => ⟨fun h c d hcd => ?_, fun h c d hcd => ?_⟩
  · exact (toLower_eq_iff (hword d (List.of_mem_zip hcd).2)).1 (h hcd)
  · exact (toLower_eq_iff (hword d (List.of_mem_zip hcd).2)).2 (h hcd)

end Text

namespace Numeral

/-! ### Counts -/

/-- `c` is a digit from 0 to 9. -/
def IsDigit (c : Char) : Prop := '0' ≤ c ∧ c ≤ '9'

instance (c : Char) : Decidable (IsDigit c) := inferInstanceAs (Decidable (_ ∧ _))

/-- `s` is one or more digits of the value `n`, with at most one plus sign before them. -/
def Writes (s : String) (n : Nat) : Prop :=
  ∃ ds : List Char, ds ≠ [] ∧ (∀ c ∈ ds, IsDigit c) ∧
    (s.toList = ds ∨ s.toList = '+' :: ds) ∧ Nat.ofDigitChars 10 ds 0 = n

theorem digit?_of_isDigit {c : Char} (hc : IsDigit c) : digit? c = some (c.toNat - '0'.toNat) :=
  if_pos hc

theorem digit?_of_not_isDigit {c : Char} (hc : ¬ IsDigit c) : digit? c = none :=
  if_neg hc

theorem le_ofDigitChars (m : Nat) (cs : List Char) : m ≤ Nat.ofDigitChars 10 cs m := by
  induction cs generalizing m with
  | nil => exact Nat.le_refl m
  | cons c cs ih =>
    rw [Nat.ofDigitChars_cons]
    have := ih (10 * m + (c.toNat - '0'.toNat))
    omega

/-- Reading on behind the value `m`: the limit is checked at every digit, and the value only grows,
so what counts is the value in the end. -/
theorem readDigits_eq_ok_iff {limit m n : Nat} {cs : List Char} (hm : m ≤ limit) :
    readDigits limit m cs = .ok n ↔
      (∀ c ∈ cs, IsDigit c) ∧ Nat.ofDigitChars 10 cs m = n ∧ n ≤ limit := by
  induction cs generalizing m with
  | nil =>
    simp only [readDigits, Except.ok.injEq, List.not_mem_nil, false_implies, implies_true, true_and]
    exact ⟨fun h => ⟨h, h ▸ hm⟩, And.left⟩
  | cons c cs ih =>
    rw [readDigits, List.forall_mem_cons, Nat.ofDigitChars_cons]
    by_cases hc : IsDigit c
    · rw [digit?_of_isDigit hc]
      dsimp only
      by_cases hlimit : 10 * m + (c.toNat - '0'.toNat) ≤ limit
      · rw [if_pos hlimit, ih hlimit]
        simp [hc]
      · have hgrows := le_ofDigitChars (10 * m + (c.toNat - '0'.toNat)) cs
        rw [if_neg hlimit]
        simp only [reduceCtorEq, false_iff]
        rintro ⟨-, rfl, hle⟩
        exact hlimit (hgrows.trans hle)
    · rw [digit?_of_not_isDigit hc]
      simp [hc]

theorem read_of_signed {limit : Nat} {s : String} {cs : List Char} (hs : s.toList = '+' :: cs)
    (hcs : cs ≠ []) : read limit s = readDigits limit 0 cs := by
  obtain ⟨c, cs, rfl⟩ := List.exists_cons_of_ne_nil hcs
  rw [read, hs]
  rfl

theorem read_of_unsigned {limit : Nat} {s : String} {c : Char} {cs : List Char}
    (hs : s.toList = c :: cs) (hc : c ≠ '+') : read limit s = readDigits limit 0 (c :: cs) := by
  rw [read, hs]
  split <;> simp_all

/-- Reading finds the value that a text writes, if it keeps the limit. -/
theorem read_eq_ok_iff {limit n : Nat} {s : String} :
    read limit s = .ok n ↔ Writes s n ∧ n ≤ limit := by
  constructor
  · intro hread
    rw [read] at hread
    split at hread
    next => cases hread
    next => cases hread
    next cs hcs hs =>
      obtain ⟨hdigits, hvalue, hle⟩ := (readDigits_eq_ok_iff (Nat.zero_le limit)).1 hread
      exact ⟨⟨cs, hcs, hdigits, .inr hs, hvalue⟩, hle⟩
    next hne _ _ =>
      obtain ⟨hdigits, hvalue, hle⟩ := (readDigits_eq_ok_iff (Nat.zero_le limit)).1 hread
      exact ⟨⟨s.toList, hne, hdigits, .inl rfl, hvalue⟩, hle⟩
  · rintro ⟨⟨ds, hne, hdigits, hs | hs, hvalue⟩, hle⟩
    · obtain ⟨c, cs, rfl⟩ := List.exists_cons_of_ne_nil hne
      have hc : c ≠ '+' := by
        rintro rfl
        exact absurd (hdigits '+' List.mem_cons_self) (by decide)
      rw [read_of_unsigned hs hc]
      exact (readDigits_eq_ok_iff (Nat.zero_le limit)).2 ⟨hdigits, hvalue, hle⟩
    · rw [read_of_signed hs hne]
      exact (readDigits_eq_ok_iff (Nat.zero_le limit)).2 ⟨hdigits, hvalue, hle⟩

end Numeral

end HalfDuplex
