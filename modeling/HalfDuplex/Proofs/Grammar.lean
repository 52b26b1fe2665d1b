import HalfDuplex.Proofs.Parsing

/-!
# The grammar of JSON

What a JSON text is and which value it spells, said without the reader: a rule for each way to make
a text of smaller ones, with blanks wherever they may stand, strings in any of their spellings and
numbers in any of theirs.  The reader reads every text of the grammar as the value that it spells.

* `Literal.Writes`, `Number.Writes` : the spellings of a string and of a number.
* `Derives` : the rules of the grammar, `IsJson` its texts.
* `Scanned` : a part of a text stands for a row of tokens, whatever follows.
* `Derives.scanned` : what the grammar derives stands for the tokens of the value.
* `IsJson.read?` : a text of the grammar reads as the value that it spells.

The grammar gives a string and a number a content under the same conditions as `Value` does: a
string that escapes an unpaired half denotes no text, and a number has a value if it is written in
digits alone.
-/

namespace HalfDuplex

namespace Json

/-! ### Strings -/

namespace Literal

/-- The code points `us` spell the characters `cs`: one spells its character, and a high half with a
low one behind it spell the character that is beyond 16 bits. -/
inductive Joins : List Nat → List Char → Prop where
  | nil : Joins [] []
  | char (c : Char) {us : List Nat} {cs : List Char} : Joins us cs → Joins (c.toNat :: us) (c :: cs)
  | pair {high low : Nat} {c : Char} {us : List Nat} {cs : List Char} :
      0xD800 ≤ high → high ≤ 0xDBFF → 0xDC00 ≤ low → low ≤ 0xDFFF →
      c.toNat = 0x10000 + (high - 0xD800) * 0x400 + (low - 0xDC00) → Joins us cs →
      Joins (high :: low :: us) (c :: cs)

/-- `s` is the text that `us` spell, or none if they spell none. -/
def Denotes (us : List Nat) (s : Option String) : Prop :=
  ∀ t : String, s = some t ↔ Joins us t.toList

/-- The letters that stand for a character behind a backslash. -/
def escapes : List (Char × Char) :=
  [('"', '"'), ('\\', '\\'), ('/', '/'), ('b', '\x08'), ('f', '\x0c'), ('n', '\n'), ('r', '\r'),
    ('t', '\t')]

/-- The hexadecimal digits with small letters. -/
def smallDigits : List Char :=
  ['0', '1', '2', '3', '4', '5', '6', '7', '8', '9', 'a', 'b', 'c', 'd', 'e', 'f']

/-- The hexadecimal digits with capital letters. -/
def capitalDigits : List Char :=
  ['0', '1', '2', '3', '4', '5', '6', '7', '8', '9', 'A', 'B', 'C', 'D', 'E', 'F']

/-- `c` is a hexadecimal digit of value `d`. -/
def Hex (c : Char) (d : Nat) : Prop := smallDigits[d]? = some c ∨ capitalDigits[d]? = some c

/-- The characters that stand for themselves between quotes. -/
def isPlain (c : Char) : Bool := c ≠ '"' && c ≠ '\\' && 0x20 ≤ c.toNat

/-- `cs` is one way to write the code point `u` between quotes. -/
inductive Piece : List Char → Nat → Prop where
  | plain {c : Char} : isPlain c = true → Piece [c] c.toNat
  | letter {l c : Char} : (l, c) ∈ escapes → Piece ['\\', l] c.toNat
  | number {a b c d : Char} {w x y z : Nat} : Hex a w → Hex b x → Hex c y → Hex d z →
      Piece ['\\', 'u', a, b, c, d] (0x1000 * w + 0x100 * x + 0x10 * y + z)

/-- `cs` is one way to write the code points `us` between quotes. -/
inductive Body : List Char → List Nat → Prop where
  | nil : Body [] []
  | cons {p cs : List Char} {u : Nat} {us : List Nat} : Piece p u → Body cs us →
      Body (p ++ cs) (u :: us)

/-- `cs` is a string literal, and `s` the text that it denotes. -/
def Writes (cs : List Char) (s : Option String) : Prop :=
  ∃ body us, Body body us ∧ Denotes us s ∧ cs = '"' :: body ++ ['"']

/-- The characters that code points and halves spell are those that `chars?` finds. -/
theorem chars?_of_joins {us : List Nat} {cs : List Char} (h : Joins us cs) :
    chars? us = some cs := by
  induction h with
  | nil => rfl
  | @char c us cs _ ih =>
    obtain ⟨hhigh, hlow⟩ := not_half c
    cases us with
    | nil =>
      cases Option.some.inj ih
      simp [chars?, hhigh, hlow]
    | cons u us => simp [chars?, hhigh, hlow, ih]
  | @pair high low c us cs hhigh hhigh' hlow hlow' hc _ ih =>
    have hfirst : isHigh high = true := by simp [isHigh, hhigh, hhigh']
    have hsecond : isLow low = true := by simp [isLow, hlow, hlow']
    have hjoined : joined high low = c.toNat := hc.symm
    have hchar : Char.ofNat (joined high low) = c := by rw [hjoined, Char.ofNat_toNat]
    simp [chars?, hfirst, hsecond, hchar, ih]

theorem toNat_ofNat_of_not_half {u : Nat} (hu : u < 0x110000) (hhigh : isHigh u = false)
    (hlow : isLow u = false) : (Char.ofNat u).toNat = u := by
  have hvalid : u.isValidChar := by
    simp only [isHigh, isLow, Bool.and_eq_false_iff, decide_eq_false_iff_not] at hhigh hlow
    simp only [Nat.isValidChar]
    omega
  rw [Char.ofNat, dif_pos hvalid]
  rfl

theorem joins_of_chars? {us : List Nat} {cs : List Char} (hus : ∀ u ∈ us, u < 0x110000)
    (h : chars? us = some cs) : Joins us cs := by
  fun_induction chars? us generalizing cs with
  | case1 =>
    cases h
    exact .nil
  | case2 u hhalf => cases h
  | case3 u hhalf =>
    cases h
    simp only [Bool.or_eq_true, not_or, Bool.not_eq_true] at hhalf
    have hchar := Joins.char (Char.ofNat u) .nil
    rwa [toNat_ofNat_of_not_half (hus u List.mem_cons_self) hhalf.1 hhalf.2] at hchar
  | case4 u v rest hhigh hlow ih =>
    obtain ⟨cs', hrest, rfl⟩ := Option.map_eq_some_iff.1 h
    simp only [isHigh, isLow, Bool.and_eq_true, decide_eq_true_eq] at hhigh hlow
    refine .pair hhigh.1 hhigh.2 hlow.1 hlow.2 ?_ (ih ?_ hrest)
    · -- the joined code point lies beyond all halves
      have hbound : 0xDFFF < joined u v ∧ joined u v < 0x110000 := by
        unfold joined
        omega
      have hhalf : isHigh (joined u v) = false ∧ isLow (joined u v) = false := by
        simp only [isHigh, isLow, Bool.and_eq_false_iff, decide_eq_false_iff_not]
        omega
      exact toNat_ofNat_of_not_half hbound.2 hhalf.1 hhalf.2
    · exact fun w hw => hus w (List.mem_cons_of_mem _ (List.mem_cons_of_mem _ hw))
  | case5 | case6 => cases h
  | case7 u v rest hhigh hlow ih =>
    obtain ⟨cs', hrest, rfl⟩ := Option.map_eq_some_iff.1 h
    rw [Bool.not_eq_true] at hhigh hlow
    have hchar := Joins.char (Char.ofNat u) (ih (fun w hw => hus w (.tail _ hw)) hrest)
    rwa [toNat_ofNat_of_not_half (hus u List.mem_cons_self) hhigh hlow] at hchar

theorem denotes_iff {us : List Nat} {s : Option String} (hus : ∀ u ∈ us, u < 0x110000) :
    Denotes us s ↔ text? us = s := by
  have htext : ∀ t : String, text? us = some t ↔ Joins us t.toList := by
    intro t
    rw [text?, Option.map_eq_some_iff]
    constructor
    · rintro ⟨cs, hcs, rfl⟩
      rw [String.toList_ofList]
      exact joins_of_chars? hus hcs
    · exact fun h => ⟨_, chars?_of_joins h, String.ofList_toList⟩
  constructor
  · exact fun h => Option.ext fun t => (htext t).trans (h t).symm
  · rintro rfl
    exact htext

theorem hexDigit?_of_hex {c : Char} {d : Nat} (h : Hex c d) : d < 16 ∧ hexDigit? c = some d := by
  have hsmall : ∀ d : Fin 16, hexDigit? (smallDigits.get d) = some d.val := by decide
  have hcapital : ∀ d : Fin 16, hexDigit? (capitalDigits.get d) = some d.val := by decide
  rcases h with h | h
  · obtain ⟨hd, rfl⟩ := List.getElem?_eq_some_iff.1 h
    exact ⟨hd, hsmall ⟨d, hd⟩⟩
  · obtain ⟨hd, rfl⟩ := List.getElem?_eq_some_iff.1 h
    exact ⟨hd, hcapital ⟨d, hd⟩⟩

theorem Piece.lt {p : List Char} {u : Nat} (h : Piece p u) : u < 0x110000 := by
  have hchar : ∀ c : Char, c.toNat < 0x110000 := by
    intro c
    have hvalid : c.toNat < 0xD800 ∨ 0xDFFF < c.toNat ∧ c.toNat < 0x110000 := c.valid
    omega
  cases h with
  | plain | letter => exact hchar _
  | number ha hb hc hd =>
    have hw := (hexDigit?_of_hex ha).1
    have hx := (hexDigit?_of_hex hb).1
    have hy := (hexDigit?_of_hex hc).1
    have hz := (hexDigit?_of_hex hd).1
    omega

theorem Body.lt {cs : List Char} {us : List Nat} (h : Body cs us) : ∀ u ∈ us, u < 0x110000 := by
  induction h with
  | nil => exact fun _ => nofun
  | cons hpiece _ ih => exact List.forall_mem_cons.2 ⟨hpiece.lt, ih⟩

theorem Body.plain {cs : List Char} (hcs : cs.all isPlain = true) :
    Body cs (cs.map Char.toNat) := by
  induction cs with
  | nil => exact .nil
  | cons c cs ih =>
    rw [List.all_cons, Bool.and_eq_true] at hcs
    exact .cons (.plain hcs.1) (ih hcs.2)

theorem writes_text (s : String) (hs : s.toList.all isPlain = true) :
    Writes ('"' :: s.toList ++ ['"']) (some s) :=
  ⟨_, _, .plain hs, (denotes_iff (Body.plain hs).lt).2 (text?_units s), rfl⟩

end Literal

/-! ### Numbers -/

namespace Number

/-- One digit or more. -/
def Digits (cs : List Char) : Prop := cs ≠ [] ∧ ∀ c ∈ cs, c.isDigit = true

/-- The part before the point: a zero, or digits of which the first is none. -/
inductive Whole : List Char → Prop where
  | zero : Whole ['0']
  | digits {c : Char} {cs : List Char} : c ≠ '0' → Digits (c :: cs) → Whole (c :: cs)

/-- Nothing, or a point and digits. -/
def Fraction (cs : List Char) : Prop := cs = [] ∨ ∃ ds, Digits ds ∧ cs = '.' :: ds

/-- Nothing, or a letter, perhaps a sign, and digits. -/
def Exponent (cs : List Char) : Prop :=
  cs = [] ∨ ∃ e sign ds, (e = 'e' ∨ e = 'E') ∧ (sign = [] ∨ sign = ['+'] ∨ sign = ['-']) ∧
    Digits ds ∧ cs = e :: (sign ++ ds)

/-- `cs` is a number.  Written in digits alone it has a value. -/
inductive Writes : List Char → Option Nat → Prop where
  | plain (n : Nat) : Writes (Nat.toDigits 10 n) (some n)
  | signed {whole fraction exponent : List Char} : Whole whole → Fraction fraction →
      Exponent exponent → Writes ('-' :: (whole ++ (fraction ++ exponent))) none
  | unsigned {whole fraction exponent : List Char} : Whole whole → Fraction fraction →
      Exponent exponent → fraction ++ exponent ≠ [] →
      Writes (whole ++ (fraction ++ exponent)) none

variable {cs whole fraction exponent : List Char} {n : Option Nat}

theorem ne_of_isDigit {c d : Char} (hc : c.isDigit = true) (hd : d.isDigit = false) : c ≠ d := by
  rintro rfl
  rw [hc] at hd
  cases hd

theorem isDigits_of_digits (h : Digits cs) : isDigits cs = true := by
  simp [isDigits, h.1, List.all_eq_true.2 h.2]

theorem Whole.digits_all (h : Whole whole) : Digits whole := by
  cases h with
  | zero => exact ⟨nofun, List.forall_mem_singleton.2 rfl⟩
  | digits _ h => exact h

theorem isInteger_of_whole (h : Whole whole) : isInteger whole = true := by
  cases h with
  | zero => rfl
  | digits hzero h =>
    have hall := List.all_eq_true.2 h.2
    simpa [isInteger, hzero] using hall

theorem isInteger_eq_false {c : Char} (hmem : c ∈ cs) (hc : c.isDigit = false) :
    isInteger cs = false := by
  unfold isInteger
  split
  case h_1 => rfl
  case h_2 =>
    rw [List.mem_singleton.1 hmem] at hc
    cases hc
  case h_3 => rfl
  case h_4 => exact List.all_eq_false.2 ⟨c, hmem, by simp [hc]⟩

theorem isExponent_of_exponent (h : Exponent exponent) : isExponent exponent = true := by
  rcases h with rfl | ⟨e, sign, ds, he, hsign, hds, rfl⟩
  · rfl
  · have hdigits := isDigits_of_digits hds
    rcases hsign with rfl | rfl | rfl
    · obtain ⟨d, ds, rfl⟩ := List.exists_cons_of_ne_nil hds.1
      have hd := hds.2 d List.mem_cons_self
      have hplus : d ≠ '+' := ne_of_isDigit hd rfl
      have hminus : d ≠ '-' := ne_of_isDigit hd rfl
      simp [isExponent, hplus, hminus, he, hdigits]
    · simp [isExponent, he, hdigits]
    · simp [isExponent, he, hdigits]

theorem head_tail (hfraction : Fraction fraction) (hexponent : Exponent exponent) :
    ∀ c ∈ (fraction ++ exponent).head?, c.isDigit = false := by
  rcases hfraction with rfl | ⟨ds, -, rfl⟩
  · rcases hexponent with rfl | ⟨e, sign, ds, rfl | rfl, -, -, rfl⟩
    · exact fun _ => nofun
    · rintro c ⟨⟩
      rfl
    · rintro c ⟨⟩
      rfl
  · rintro c ⟨⟩
    rfl

theorem span_digits {tail : List Char} (hcs : ∀ c ∈ cs, c.isDigit = true)
    (htail : ∀ c ∈ tail.head?, c.isDigit = false) :
    (cs ++ tail).takeWhile Char.isDigit = cs ∧ (cs ++ tail).dropWhile Char.isDigit = tail := by
  rw [List.takeWhile_append_of_pos hcs, List.dropWhile_append_of_pos hcs]
  cases tail with
  | nil => simp
  | cons c tail =>
    have hc := htail c rfl
    simp [hc]

theorem isTail_append (hfraction : Fraction fraction) (hexponent : Exponent exponent) :
    isTail (fraction ++ exponent) = true := by
  have hread := isExponent_of_exponent hexponent
  rcases hfraction with rfl | ⟨ds, hds, rfl⟩
  · rcases hexponent with rfl | ⟨e, sign, ds, he, -, -, rfl⟩
    · rfl
    · have hpoint : e ≠ '.' := by rintro rfl; simp at he
      simpa [isTail, hpoint] using hread
  · obtain ⟨htake, hdrop⟩ := span_digits hds.2 (head_tail (.inl rfl) hexponent)
    rw [List.nil_append] at htake hdrop
    simp [isTail, htake, hdrop, hread, isDigits_of_digits hds]

theorem isUnsigned_append (hwhole : Whole whole) (hfraction : Fraction fraction)
    (hexponent : Exponent exponent) : isUnsigned (whole ++ (fraction ++ exponent)) = true := by
  obtain ⟨htake, hdrop⟩ := span_digits hwhole.digits_all.2 (head_tail hfraction hexponent)
  rw [isUnsigned, htake, hdrop, isInteger_of_whole hwhole, isTail_append hfraction hexponent]
  rfl

/-- A number is read with its value. -/
theorem Writes.read (h : Writes cs n) : Number.read cs = some n := by
  cases h with
  | plain n => exact read_toDigits n
  | @signed whole fraction exponent hwhole hfraction hexponent =>
    have hinteger : isInteger ('-' :: (whole ++ (fraction ++ exponent))) = false :=
      isInteger_eq_false List.mem_cons_self rfl
    simp [Number.read, hinteger, isUnsigned_append hwhole hfraction hexponent]
  | @unsigned whole fraction exponent hwhole hfraction hexponent htail =>
    have hunsigned := isUnsigned_append hwhole hfraction hexponent
    have hinteger : isInteger (whole ++ (fraction ++ exponent)) = false := by
      -- the fraction or the exponent begins with something that is no digit
      obtain ⟨c, tail, hc⟩ := List.exists_cons_of_ne_nil htail
      have hdigit : c.isDigit = false := head_tail hfraction hexponent c (by rw [hc]; rfl)
      refine isInteger_eq_false (List.mem_append_right _ ?_) hdigit
      rw [hc]
      exact List.mem_cons_self
    obtain ⟨d, ds, rfl⟩ := List.exists_cons_of_ne_nil hwhole.digits_all.1
    have hminus : d ≠ '-' := ne_of_isDigit (hwhole.digits_all.2 d List.mem_cons_self) rfl
    rw [List.cons_append] at hinteger hunsigned ⊢
    simp [Number.read, hinteger, hunsigned, hminus]

theorem isPart_tail (hfraction : Fraction fraction) (hexponent : Exponent exponent) :
    ∀ c ∈ fraction ++ exponent, isPart c = true := by
  have hdigits : ∀ {ds}, Digits ds → ∀ c ∈ ds, isPart c = true :=
    fun hds c hc => isPart_of_isDigit (hds.2 c hc)
  have hexp : ∀ c ∈ exponent, isPart c = true := by
    rcases hexponent with rfl | ⟨e, sign, ds, he, hsign, hds, rfl⟩
    · exact fun _ => nofun
    · refine List.forall_mem_cons.2 ⟨by rcases he with rfl | rfl <;> rfl, ?_⟩
      rw [List.forall_mem_append]
      refine ⟨?_, hdigits hds⟩
      rcases hsign with rfl | rfl | rfl
      · exact fun _ => nofun
      · exact List.forall_mem_singleton.2 rfl
      · exact List.forall_mem_singleton.2 rfl
  rw [List.forall_mem_append]
  rcases hfraction with rfl | ⟨ds, hds, rfl⟩
  · exact ⟨fun _ => nofun, hexp⟩
  · exact ⟨List.forall_mem_cons.2 ⟨rfl, hdigits hds⟩, hexp⟩

theorem Digits.parts {tail : List Char} (h : Digits cs) (htail : ∀ d ∈ tail, isPart d = true) :
    ∃ c rest, cs ++ tail = c :: rest ∧ c.isDigit = true ∧ ∀ d ∈ rest, isPart d = true := by
  obtain ⟨c, cs, rfl⟩ := List.exists_cons_of_ne_nil h.1
  obtain ⟨hc, hrest⟩ := List.forall_mem_cons.1 h.2
  exact ⟨c, _, rfl, hc,
    List.forall_mem_append.2 ⟨fun d hd => isPart_of_isDigit (hrest d hd), htail⟩⟩

theorem Writes.parts (h : Writes cs n) :
    ∃ c rest, cs = c :: rest ∧ (c = '-' ∨ c.isDigit = true) ∧ ∀ d ∈ rest, isPart d = true := by
  cases h with
  | plain n =>
    have hdigits : Digits (Nat.toDigits 10 n) :=
      ⟨Nat.toDigits_ne_nil, fun c hc => Nat.isDigit_of_mem_toDigits (by decide) (by decide) hc⟩
    obtain ⟨c, rest, hcs, hc, hrest⟩ := hdigits.parts fun _ => (nofun : _ ∈ [] → _)
    rw [List.append_nil] at hcs
    exact ⟨c, rest, hcs, .inr hc, hrest⟩
  | signed hwhole hfraction hexponent =>
    refine ⟨'-', _, rfl, .inl rfl, List.forall_mem_append.2 ⟨fun d hd => ?_, ?_⟩⟩
    · exact isPart_of_isDigit (hwhole.digits_all.2 d hd)
    · exact isPart_tail hfraction hexponent
  | unsigned hwhole hfraction hexponent _ =>
    obtain ⟨c, rest, hcs, hc, hrest⟩ := hwhole.digits_all.parts (isPart_tail hfraction hexponent)
    exact ⟨c, rest, hcs, .inr hc, hrest⟩

end Number

/-! ### Tokens -/

namespace Scan

open Literal

variable {cs rest : List Char} {units us : List Nat} {u : Nat} {s : Option String} {n : Option Nat}

/-- A way to write a code point is read as that code point. -/
theorem walk_piece (h : Piece cs u) :
    (string units).walk cs = some ([], string (u :: units)) := by
  cases h with
  | plain hplain =>
    simp only [isPlain, Bool.and_eq_true, decide_eq_true_eq] at hplain
    obtain ⟨⟨hquote, hslash⟩, hcontrol⟩ := hplain
    simp [walk, step, hquote, hslash, Nat.not_lt.2 hcontrol]
  | @letter l c hmem =>
    have hall : ∀ e ∈ escapes, e.1 ≠ 'u' ∧ escaped? e.1 = some e.2.toNat := by decide
    obtain ⟨hu, hread⟩ := hall _ hmem
    simp [walk, step, hu, hread]
  | @number a b c d w x y z ha hb hc hd =>
    have hvalue : 16 * (16 * (16 * w + x) + y) + z = 0x1000 * w + 0x100 * x + 0x10 * y + z := by
      omega
    simp [walk, step, (hexDigit?_of_hex ha).2, (hexDigit?_of_hex hb).2, (hexDigit?_of_hex hc).2,
      (hexDigit?_of_hex hd).2, hvalue]

theorem walk_body (h : Body cs us) (units : List Nat) :
    (string units).walk cs = some ([], string (us.reverse ++ units)) := by
  induction h generalizing units with
  | nil => rfl
  | cons hpiece _ ih =>
    rw [walk_append (walk_piece hpiece), ih]
    simp

/-- A string literal is read as the text that it denotes. -/
theorem run_literal (h : Literal.Writes cs s) (rest : List Char) :
    between.run (cs ++ rest) = (between.run rest).map (.string s :: ·) := by
  obtain ⟨body, us, hbody, hdenotes, rfl⟩ := h
  have hopen : between.walk ['"'] = some ([], string []) := rfl
  have hclose : (string us.reverse).walk ['"'] = some ([.string s], between) := by
    have htext : text? us = s := (denotes_iff hbody.lt).1 hdenotes
    rw [← htext]
    simp [walk, step]
  have hwalk : (string []).walk body = some ([], string us.reverse) := by
    simpa using walk_body hbody []
  have hliteral : between.walk (['"'] ++ (body ++ ['"'])) = some ([.string s], between) := by
    rw [walk_append hopen, walk_append hwalk, hclose]
    rfl
  exact run_append hliteral rest

/-- A number is read with its value, if it does not go on. -/
theorem run_numeral (h : Number.Writes cs n) (hrest : Ends rest) :
    between.run (cs ++ rest) = (between.run rest).map (.number n :: ·) := by
  have hread := h.read
  obtain ⟨c, tail, rfl, hfirst, htail⟩ := h.parts
  have hstart : between.step c = some ([], number [c]) := by
    rcases hfirst with rfl | hdigit
    · rfl
    · exact start_digit hdigit
  have hwalk : between.walk (c :: tail) = some ([], number (tail.reverse ++ [c])) := by
    simp [walk, hstart, walk_parts htail]
  refine (run_on hwalk rest).trans (run_number ?_ hrest)
  simpa using hread

end Scan

/-! ### The rules -/

/-- The blanks of JSON. -/
def Blank (cs : List Char) : Prop := ∀ c ∈ cs, c = ' ' ∨ c = '\t' ∨ c = '\n' ∨ c = '\r'

theorem Blank.nil : Blank [] := fun _ => nofun

/-- What a part of a text can spell. -/
inductive Phrase where
  /-- A value. -/
  | value (v : Value)
  /-- A value, with blanks around it or without. -/
  | element (v : Value)
  /-- The items of an array that is not empty. -/
  | elements (items : List Value)
  /-- A key and its value. -/
  | member (k : Option String) (v : Value)
  /-- The members of an object that is not empty. -/
  | members (ms : List (Option String × Value))

/-- The grammar: `cs` spells the phrase. -/
inductive Derives : List Char → Phrase → Prop where
  | null : Derives ['n', 'u', 'l', 'l'] (.value .null)
  | yes : Derives ['t', 'r', 'u', 'e'] (.value (.bool true))
  | no : Derives ['f', 'a', 'l', 's', 'e'] (.value (.bool false))
  | number {cs : List Char} {n : Option Nat} : Number.Writes cs n → Derives cs (.value (.number n))
  | string {cs : List Char} {s : Option String} : Literal.Writes cs s →
      Derives cs (.value (.string s))
  | emptyArray {bs : List Char} : Blank bs → Derives ('[' :: (bs ++ [']'])) (.value (.array []))
  | array {cs : List Char} {items : List Value} : Derives cs (.elements items) →
      Derives ('[' :: (cs ++ [']'])) (.value (.array items))
  | emptyObject {bs : List Char} : Blank bs →
      Derives ('\x7b' :: (bs ++ ['\x7d'])) (.value (.object []))
  | object {cs : List Char} {ms : List (Option String × Value)} : Derives cs (.members ms) →
      Derives ('\x7b' :: (cs ++ ['\x7d'])) (.value (.object ms))
  | element {bs cs bs' : List Char} {v : Value} : Blank bs → Derives cs (.value v) → Blank bs' →
      Derives (bs ++ (cs ++ bs')) (.element v)
  | lastElement {cs : List Char} {v : Value} : Derives cs (.element v) → Derives cs (.elements [v])
  | elements {cs cs' : List Char} {v w : Value} {items : List Value} : Derives cs (.element v) →
      Derives cs' (.elements (w :: items)) →
      Derives (cs ++ ',' :: cs') (.elements (v :: w :: items))
  | member {bs key bs' cs : List Char} {k : Option String} {v : Value} : Blank bs →
      Literal.Writes key k → Blank bs' → Derives cs (.element v) →
      Derives (bs ++ (key ++ (bs' ++ ':' :: cs))) (.member k v)
  | lastMember {cs : List Char} {k : Option String} {v : Value} : Derives cs (.member k v) →
      Derives cs (.members [(k, v)])
  | members {cs cs' : List Char} {k : Option String} {v : Value} {m : Option String × Value}
      {ms : List (Option String × Value)} : Derives cs (.member k v) →
      Derives cs' (.members (m :: ms)) → Derives (cs ++ ',' :: cs') (.members ((k, v) :: m :: ms))

/-- `text` is a JSON text that spells `v`. -/
def IsJson (text : String) (v : Value) : Prop := Derives text.toList (.element v)

namespace Derives

variable {cs key : List Char} {k : Option String} {v : Value}

theorem bare (h : Derives cs (.value v)) : Derives cs (.element v) := by
  have helement := Derives.element .nil h .nil
  rwa [List.append_nil] at helement

theorem entry (hkey : Literal.Writes key k) (h : Derives cs (.value v)) :
    Derives (key ++ ':' :: cs) (.member k v) := .member .nil hkey .nil h.bare

theorem isJson {text : String} (h : Derives cs (.element v)) (htext : text.toList = cs) :
    IsJson text v := by
  rwa [IsJson, htext]

end Derives

/-- The tokens that stand for a phrase. -/
def Phrase.tokens : Phrase → List Token
  | value v => v.tokens
  | element v => v.tokens
  | elements items => Value.itemTokens items
  | member k v => .string k :: .colon :: v.tokens
  | members ms => Value.memberTokens ms

/-! ### What is derived is read -/

/-- The scanner finds the tokens `ts` in `cs`, and the rest of the text is scanned as it would be
alone. -/
def Scanned (cs : List Char) (ts : List Token) : Prop :=
  ∀ rest, Ends rest → Scan.between.run (cs ++ rest) = (Scan.between.run rest).map (ts ++ ·)

theorem Blank.ends {bs rest : List Char} (h : Blank bs) (hrest : Ends rest) :
    Ends (bs ++ rest) := by
  cases bs with
  | nil => exact hrest
  | cons b bs =>
    refine ends_cons _ ?_
    rcases h b List.mem_cons_self with rfl | rfl | rfl | rfl <;> rfl

namespace Scanned

variable {bs cs cs' : List Char} {t : Token} {ts ts' : List Token}

theorem nil : Scanned [] [] := fun _ _ => Option.map_id_apply.symm

theorem cons (ht : ∀ rest, Scan.between.run (cs ++ rest) = (Scan.between.run rest).map (t :: ·))
    (h : Scanned cs' ts) : Scanned (cs ++ cs') (t :: ts) := by
  intro rest hrest
  rw [List.append_assoc, ht, h rest hrest, Option.map_map]
  rfl

theorem mark (t : Token) (ht : t.isBare = false) (h : Scanned cs ts) :
    Scanned (t.spell ++ cs) (t :: ts) :=
  cons (fun _ => Scan.run_spell t fun hbare => absurd (ht.symm.trans hbare) nofun) h

theorem blanks (hbs : Blank bs) (h : Scanned cs ts) : Scanned (bs ++ cs) ts := by
  induction bs with
  | nil => exact h
  | cons b bs ih =>
    rw [Blank, List.forall_mem_cons] at hbs
    have hwalk : Scan.between.walk [b] = some ([], .between) := by
      rcases hbs.1 with rfl | rfl | rfl | rfl <;> rfl
    exact fun rest hrest => (Scan.run_on hwalk _).trans (ih hbs.2 rest hrest)

/-- One part behind another, if it does not continue a word or a number. -/
theorem append (h : Scanned cs ts) (hends : ∀ rest, Ends rest → Ends (cs' ++ rest))
    (h' : Scanned cs' ts') : Scanned (cs ++ cs') (ts ++ ts') := by
  intro rest hrest
  rw [List.append_assoc, h _ (hends rest hrest), h' rest hrest, Option.map_map]
  exact congrArg (Option.map · _) (funext fun _ => (List.append_assoc _ _ _).symm)

theorem append_blanks (h : Scanned cs ts) (hbs : Blank bs) : Scanned (cs ++ bs) ts := by
  have hnothing : Scanned (bs ++ []) [] := .blanks hbs .nil
  rw [List.append_nil] at hnothing
  have hboth := h.append (fun _ hrest => hbs.ends hrest) hnothing
  rwa [List.append_nil] at hboth

end Scanned

/-- What the grammar derives stands for the tokens of the phrase. -/
theorem Derives.scanned {cs : List Char} {p : Phrase} (h : Derives cs p) : Scanned cs p.tokens := by
  induction h with
  | null => exact fun rest hrest => Scan.run_spell .null fun _ => hrest
  | yes => exact fun rest hrest => Scan.run_spell (.bool true) fun _ => hrest
  | no => exact fun rest hrest => Scan.run_spell (.bool false) fun _ => hrest
  | number hn => exact fun rest hrest => Scan.run_numeral hn hrest
  | string hs => exact fun rest _ => Scan.run_literal hs rest
  | emptyArray hbs => exact .mark .openArray rfl (.blanks hbs (.mark .closeArray rfl .nil))
  | array _ ih =>
    have hend : Scanned [']'] [.closeArray] := .mark .closeArray rfl .nil
    exact .mark .openArray rfl (ih.append (fun _ _ => ends_cons _ rfl) hend)
  | emptyObject hbs => exact .mark .openObject rfl (.blanks hbs (.mark .closeObject rfl .nil))
  | object _ ih =>
    have hend : Scanned ['\x7d'] [.closeObject] := .mark .closeObject rfl .nil
    exact .mark .openObject rfl (ih.append (fun _ _ => ends_cons _ rfl) hend)
  | element hbs _ hbs' ih => exact .blanks hbs (ih.append_blanks hbs')
  | lastElement _ ih => exact ih
  | elements _ _ ih ih' => exact ih.append (fun _ _ => ends_cons _ rfl) (.mark .comma rfl ih')
  | member hbs hkey hbs' _ ih =>
    have hvalue : Scanned _ _ := .blanks hbs' (.mark .colon rfl ih)
    exact .blanks hbs (.cons (Scan.run_literal hkey) hvalue)
  | lastMember _ ih => exact ih
  | members _ _ ih ih' => exact ih.append (fun _ _ => ends_cons _ rfl) (.mark .comma rfl ih')

/-- **A text of the grammar reads as the value that it spells.** -/
theorem IsJson.read? {text : String} {v : Value} (h : IsJson text v) :
    Value.read? text = some v := by
  have hscan : Token.scan text.toList = some v.tokens := by
    have hrun := h.scanned [] nofun
    rw [List.append_nil] at hrun
    exact hrun.trans (congrArg some (List.append_nil _))
  rw [Value.read?, hscan, Option.bind_some, Value.ofTokens?_tokens]

end Json

end HalfDuplex
