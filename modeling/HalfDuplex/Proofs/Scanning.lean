import HalfDuplex.Json.Token
import Mathlib.Tactic.SplitIfs

/-!
# What is spelled is scanned

The scanner finds the tokens of a text again when they are spelled one after the other, with blanks
between them or without.  Only words and numbers need something behind them that is not part of
themselves.

* `Number.read_toDigits` : the decimal digits of a number read as that number.
* `Literal.text?_units` : the code points of a text are its text.
* `Scan.run_spell` : a spelled token is scanned, and the rest of the text as it would be alone.
* `Spelled` : a text spells a row of tokens.
* `Spelled.scan` : such a text is scanned to these tokens.
-/

namespace HalfDuplex

namespace Json

/-! ### Numbers -/

namespace Number

theorem head_toDigits_ne {n : Nat} (hpos : 0 < n) : (Nat.toDigits 10 n).head? ≠ some '0' := by
  induction n using Nat.strongRecOn with
  | ind n ih =>
    by_cases hn : n < 10
    · rw [Nat.toDigits_of_lt_base hn]
      have hdigit : ∀ d < 10, 0 < d → [Nat.digitChar d].head? ≠ some '0' := by decide
      exact hdigit n hn hpos
    · have hle : 10 ≤ n := Nat.le_of_not_lt hn
      obtain ⟨c, cs, hcs⟩ := List.exists_cons_of_ne_nil
        (Nat.toDigits_ne_nil : Nat.toDigits 10 (n / 10) ≠ [])
      have hhead := ih (n / 10) (by omega) (by omega)
      rw [hcs] at hhead
      rw [Nat.toDigits_of_base_le (by decide) hle, hcs]
      exact hhead

theorem isInteger_toDigits (n : Nat) : isInteger (Nat.toDigits 10 n) = true := by
  by_cases hpos : 0 < n
  · have hhead := head_toDigits_ne hpos
    have hdigits : (Nat.toDigits 10 n).all Char.isDigit = true :=
      List.all_eq_true.2 fun c hc => Nat.isDigit_of_mem_toDigits (by decide) (by decide) hc
    unfold isInteger
    split
    case h_1 hnil => exact absurd hnil Nat.toDigits_ne_nil
    case h_2 => rfl
    case h_3 hzero => simp [hzero] at hhead
    case h_4 => exact hdigits
  · obtain rfl : n = 0 := by omega
    rfl

theorem read_toDigits (n : Nat) : read (Nat.toDigits 10 n) = some (some n) := by
  have hvalue : valueFrom 0 (Nat.toDigits 10 n) = n := by
    rw [valueFrom, ← Nat.ofDigitChars_eq_foldl, Nat.ofDigitChars_ten_toDigits]
  simp [read, isInteger_toDigits, hvalue]

theorem isPart_of_isDigit {c : Char} (h : c.isDigit = true) : isPart c = true := by
  simp [isPart, h]

end Number

/-! ### Texts -/

namespace Literal

theorem not_half (c : Char) : isHigh c.toNat = false ∧ isLow c.toNat = false := by
  have hvalid : c.toNat < 0xD800 ∨ 0xDFFF < c.toNat ∧ c.toNat < 0x110000 := c.valid
  simp only [isHigh, isLow, Bool.and_eq_false_iff, decide_eq_false_iff_not]
  omega

theorem chars?_units (cs : List Char) : chars? (cs.map Char.toNat) = some cs := by
  induction cs with
  | nil => rfl
  | cons c cs ih =>
    obtain ⟨hhigh, hlow⟩ := not_half c
    cases cs with
    | nil => simp [chars?, hhigh, hlow]
    | cons d cs =>
      rw [List.map_cons] at ih
      simp [chars?, hhigh, hlow, ih]

/-- The code points of a text are its text. -/
theorem text?_units (s : String) : text? (s.toList.map Char.toNat) = some s := by
  rw [text?, chars?_units, Option.map_some, String.ofList_toList]

theorem hexDigit?_digitChar {d : Nat} (hd : d < 16) : hexDigit? (Nat.digitChar d) = some d := by
  have hall : ∀ d < 16, hexDigit? (Nat.digitChar d) = some d := by decide
  exact hall d hd

end Literal

namespace Token

/-- Words and numbers: nothing marks their end. -/
def isBare : Token → Bool
  | null | bool _ | number _ => true
  | openArray | closeArray | openObject | closeObject | comma | colon | string _ => false

end Token

/-- The text `cs` does not continue a word or a number. -/
def Ends (cs : List Char) : Prop :=
  ∀ c ∈ cs.head?, c.isLower = false ∧ Number.isPart c = false

theorem ends_cons {c : Char} (cs : List Char)
    (hc : (c.isLower || Number.isPart c) = false) : Ends (c :: cs) := by
  rintro d ⟨⟩
  exact Bool.or_eq_false_iff.1 hc

namespace Scan

variable {s s' : Scan} {c : Char} {cs rest : List Char} {t : Token} {ts : List Token}

/-- The tokens that end with one of the characters `cs`, and where the scanner stands then. -/
def walk : Scan → List Char → Option (List Token × Scan)
  | s, [] => some ([], s)
  | s, c :: cs =>
    (s.step c).bind fun (ts, s) => (s.walk cs).map fun (us, s) => (ts ++ us, s)

theorem walk_append (h : s.walk cs = some (ts, s')) (rest : List Char) :
    s.walk (cs ++ rest) = (s'.walk rest).map fun (us, s) => (ts ++ us, s) := by
  induction cs generalizing s ts with
  | nil =>
    cases h
    simp
  | cons c cs ih =>
    obtain ⟨⟨us, mid⟩, hstep, hwalk⟩ := Option.bind_eq_some_iff.1 h
    obtain ⟨⟨vs, last⟩, hlater, heq⟩ := Option.map_eq_some_iff.1 hwalk
    cases heq
    simp [walk, hstep, ih hlater, Function.comp_def]

/-- The scanner walks to the end and finishes there. -/
theorem run_eq_walk (s : Scan) (cs : List Char) :
    s.run cs = (s.walk cs).bind fun (ts, s) => s.finish.map (ts ++ ·) := by
  induction cs generalizing s with
  | nil => simp [run, walk]
  | cons c cs ih =>
    rw [run, walk]
    cases s.step c with
    | none => rfl
    | some p =>
      simp only [ih, Option.bind_some, Option.bind_map, Option.map_bind]
      congr 1
      funext q
      simp [Function.comp_def]

theorem run_append (h : s.walk cs = some (ts, s')) (rest : List Char) :
    s.run (cs ++ rest) = (s'.run rest).map (ts ++ ·) := by
  rw [run_eq_walk, run_eq_walk, walk_append h, Option.bind_map, Option.map_bind]
  congr 1
  funext q
  simp [Function.comp_def]

theorem run_on (h : s.walk cs = some ([], s')) (rest : List Char) :
    s.run (cs ++ rest) = s'.run rest := by
  rw [run_append h]
  exact Option.map_id_apply

/-! ### Words and numbers -/

theorem run_ended (hs : ∀ c, c.isLower = false → Number.isPart c = false → s.step c = s.restart c)
    (hf : s.finish = some ts) (hrest : Ends rest) :
    s.run rest = (between.run rest).map (ts ++ ·) := by
  cases rest with
  | nil => simp [run, hf, show between.finish = some [] from rfl]
  | cons c cs =>
    obtain ⟨hlower, hpart⟩ := hrest c rfl
    rw [run, run, hs c hlower hpart, restart, hf, step]
    cases start c with
    | none => rfl
    | some p => simp [Function.comp_def]

theorem run_word {read : List Char} (hf : Token.ofWord? read.reverse = some t)
    (hrest : Ends rest) : (word read).run rest = (between.run rest).map (t :: ·) := by
  have hfinish : (word read).finish = some [t] := by simp [finish, hf]
  refine run_ended (fun c hlower _ => ?_) hfinish hrest
  simp [step, hlower]

theorem run_number {read : List Char} {n : Option Nat} (hf : Number.read read.reverse = some n)
    (hrest : Ends rest) : (number read).run rest = (between.run rest).map (.number n :: ·) := by
  have hfinish : (number read).finish = some [.number n] := by simp [finish, hf]
  refine run_ended (fun c _ hpart => ?_) hfinish hrest
  simp [step, hpart]

theorem walk_parts {read : List Char} (hcs : ∀ c ∈ cs, Number.isPart c = true) :
    (number read).walk cs = some ([], number (cs.reverse ++ read)) := by
  induction cs generalizing read with
  | nil => rfl
  | cons c cs ih =>
    rw [List.forall_mem_cons] at hcs
    have hstep : (number read).step c = some ([], number (c :: read)) := if_pos hcs.1
    simp [walk, hstep, ih hcs.2]

theorem start_digit (h : c.isDigit = true) : start c = some ([], number [c]) := by
  obtain ⟨hle, hge⟩ := Char.isDigit_iff_toNat.1 h
  have hspace : isSpace c = false := by
    simp only [isSpace, List.mem_cons, List.not_mem_nil, or_false, decide_eq_false_iff_not]
    rintro (rfl | rfl | rfl | rfl) <;> exact absurd h (by decide)
  have hquote : c ≠ '"' := by
    rintro rfl
    exact absurd h (by decide)
  have hlower : c.isLower = false := by
    rw [Bool.eq_false_iff]
    intro hl
    have ha : 'a'.toNat ≤ c.toNat := of_decide_eq_true (Bool.and_eq_true_iff.1 hl).1
    exact absurd (Nat.le_trans ha hge) (by decide)
  simp [start, hspace, hquote, hlower, Number.isPart_of_isDigit h]

/-- The digits of a number are read to their end: the scanner does not know yet that it is there. -/
theorem walk_digits (n : Nat) :
    between.walk (Nat.toDigits 10 n) = some ([], number (Nat.toDigits 10 n).reverse) := by
  have hdigit : ∀ c ∈ Nat.toDigits 10 n, c.isDigit = true :=
    fun c hc => Nat.isDigit_of_mem_toDigits (by decide) (by decide) hc
  obtain ⟨c, cs, hcs⟩ := List.exists_cons_of_ne_nil (Nat.toDigits_ne_nil : Nat.toDigits 10 n ≠ [])
  rw [hcs, List.forall_mem_cons] at hdigit
  have hparts : (number [c]).walk cs = some ([], number (cs.reverse ++ [c])) :=
    walk_parts fun d hd => Number.isPart_of_isDigit (hdigit.2 d hd)
  have hstep : between.step c = some ([], number [c]) := start_digit hdigit.1
  simp [hcs, walk, hstep, hparts]

/-! ### Strings -/

/-- The spelling of a character stands for its code point. -/
theorem walk_spellChar (c : Char) (units : List Nat) :
    (string units).walk (Literal.spellChar c) = some ([], string (c.toNat :: units)) := by
  unfold Literal.spellChar
  split_ifs with hquote hslash hn hr ht hb hf hlow
  · rw [hquote]; rfl
  · rw [hslash]; rfl
  · rw [hn]; rfl
  · rw [hr]; rfl
  · rw [ht]; rfl
  · rw [hb]; rfl
  · rw [hf]; rfl
  -- any other control is escaped by number
  · have hhigh := Literal.hexDigit?_digitChar (d := c.toNat / 16) (by omega)
    have hlast := Literal.hexDigit?_digitChar (d := c.toNat % 16) (by omega)
    have hvalue : 16 * (c.toNat / 16) + c.toNat % 16 = c.toNat := Nat.div_add_mod _ _
    have hzero : Literal.hexDigit? '0' = some 0 := rfl
    simp [walk, step, hzero, hhigh, hlast, hvalue]
  · simp [walk, step, hquote, hslash, hlow]

theorem walk_text (cs : List Char) (units : List Nat) :
    (string units).walk (cs.flatMap Literal.spellChar) =
      some ([], string ((cs.map Char.toNat).reverse ++ units)) := by
  induction cs generalizing units with
  | nil => rfl
  | cons c cs ih =>
    rw [List.flatMap_cons, walk_append (walk_spellChar c units), ih]
    simp

theorem walk_string (s : String) :
    between.walk (Token.string (some s)).spell = some ([.string (some s)], between) := by
  have hopen : between.walk ['"'] = some ([], string []) := rfl
  have hclose : ∀ units, (string units).walk ['"'] =
      some ([.string (Literal.text? units.reverse)], between) := fun _ => rfl
  have hspell : (Token.string (some s)).spell =
      ['"'] ++ (s.toList.flatMap Literal.spellChar ++ ['"']) := rfl
  rw [hspell, walk_append hopen, walk_append (walk_text _ _), hclose, List.append_nil,
    List.reverse_reverse, Literal.text?_units]
  rfl

theorem walk_closed (ht : t.isBare = false) : between.walk t.spell = some ([t], between) := by
  cases t with
  | openArray | closeArray | openObject | closeObject | comma | colon => rfl
  | string s =>
    cases s with
    | none => rfl
    | some s => exact walk_string s
  | null | bool | number => cases ht

/-- A spelled token is scanned, and the rest of the text as it would be alone. -/
theorem run_spell (t : Token) (hrest : t.isBare = true → Ends rest) :
    between.run (t.spell ++ rest) = (between.run rest).map (t :: ·) := by
  cases hbare : t.isBare with
  | false => exact run_append (walk_closed hbare) rest
  | true =>
    have hends := hrest hbare
    cases t with
    | null => exact (run_on rfl rest).trans (run_word rfl hends)
    | bool b => cases b <;> exact (run_on rfl rest).trans (run_word rfl hends)
    | number n =>
      cases n with
      | none => exact (run_on rfl rest).trans (run_number rfl hends)
      | some n =>
        refine (run_on (walk_digits n) rest).trans (run_number ?_ hends)
        rw [List.reverse_reverse, Number.read_toDigits]
    | openArray | closeArray | openObject | closeObject | comma | colon | string => cases hbare

end Scan

/-- The text `cs` spells the tokens `ts`, with blanks between them or without. -/
inductive Spelled : List Char → List Token → Prop where
  | nil : Spelled [] []
  | blank {c : Char} {cs : List Char} {ts : List Token} :
      Scan.isSpace c = true → Spelled cs ts → Spelled (c :: cs) ts
  | token {t : Token} {cs : List Char} {ts : List Token} :
      (t.isBare = true → Ends cs) → Spelled cs ts → Spelled (t.spell ++ cs) (t :: ts)

namespace Spelled

variable {cs cs' : List Char} {ts ts' : List Token}

theorem closed (t : Token) (ht : t.isBare = false) (h : Spelled cs ts) :
    Spelled (t.spell ++ cs) (t :: ts) :=
  .token (fun hbare => absurd (ht.symm.trans hbare) nofun) h

theorem single (t : Token) : Spelled t.spell [t] := by
  have h : Spelled (t.spell ++ []) [t] := .token (fun _ => nofun) .nil
  rwa [List.append_nil] at h

theorem blanks {bs : List Char} (hbs : ∀ c ∈ bs, Scan.isSpace c = true) (h : Spelled cs ts) :
    Spelled (bs ++ cs) ts := by
  induction bs with
  | nil => exact h
  | cons b bs ih =>
    rw [List.forall_mem_cons] at hbs
    exact .blank hbs.1 (ih hbs.2)

theorem append (h : Spelled cs ts) (hends : Ends cs') (h' : Spelled cs' ts') :
    Spelled (cs ++ cs') (ts ++ ts') := by
  induction h with
  | nil => exact h'
  | blank hspace _ ih => exact .blank hspace ih
  | @token t cs ts ht _ ih =>
    rw [List.append_assoc]
    refine .token (fun hbare => ?_) ih
    cases cs with
    | nil => exact hends
    | cons c cs => exact ht hbare

/-- **A text that spells a row of tokens is scanned to these tokens.** -/
theorem scan (h : Spelled cs ts) : Token.scan cs = some ts := by
  unfold Token.scan
  induction h with
  | nil => rfl
  | @blank c cs ts hspace _ ih =>
    have hstep : Scan.between.walk [c] = some ([], .between) := by
      simp [Scan.walk, Scan.step, Scan.start, hspace]
    exact (Scan.run_on hstep cs).trans ih
  | token hends _ ih => rw [Scan.run_spell _ hends, ih, Option.map_some]

end Spelled

end Json

end HalfDuplex
