import HalfDuplex.Handle
import HalfDuplex.Proofs.Framing

/-!
# Which rows of bytes have a header

A header is read from rows of bytes that come from anywhere.  Whether a row has one is decided by
rules in a fixed order: the magic word, the version, the length and the two directions.  A row may
end before any of them.

* `Frame.wordAt` : the words of a row of bytes, spelled out byte by byte.
* `Frame.Reads` : the rules.
* `Frame.Reader.header` : the header once more, by reads of single bytes that have to be there.
* `Frame.header_eq_ok_iff` : a row of bytes has a header exactly if it begins like a frame and has
  the length of one.
* `Frame.header_reads` : headers are read by these rules and by no others.
-/

namespace HalfDuplex

/-- A byte is read that is not there. -/
inductive OutOfBounds where
  | byte (place : Nat)
  deriving DecidableEq, Repr

namespace Frame

/-- The 32-bit word number `i` of a row of bytes, lowest byte first.  A byte that is not there
counts as zero. -/
def wordAt (data : List UInt8) (i : Nat) : Nat :=
  (data.getD (4 * i) 0).toNat + 0x100 * (data.getD (4 * i + 1) 0).toNat +
    0x10000 * (data.getD (4 * i + 2) 0).toNat + 0x1000000 * (data.getD (4 * i + 3) 0).toNat

/-- What a word means as a direction. -/
inductive Means : Nat → Option Direction → Prop where
  | outbound : Means 0 (some .outbound)
  | inbound : Means 1 (some .inbound)
  | nothing : Means 0xFFFFFFFF none

/-- What is read from a row of bytes: the header or the number of what is wrong, by the first rule
that applies. -/
inductive Reads (data : List UInt8) : Except Int Header → Prop where
  | noMagic : data.length < 4 → Reads data (.error (-2))
  | badMagic : 4 ≤ data.length → wordAt data 0 ≠ magic → Reads data (.error (-8))
  | noVersion : 4 ≤ data.length → wordAt data 0 = magic → data.length < 8 →
      Reads data (.error (-2))
  | badVersion : 8 ≤ data.length → wordAt data 0 = magic → wordAt data 1 ≠ version →
      Reads data (.error (-9))
  | badLength : 8 ≤ data.length → wordAt data 0 = magic → wordAt data 1 = version →
      data.length ≠ 144 → Reads data (.error (-2))
  | badDirection {i : Nat} : data.length = 144 → wordAt data 0 = magic → wordAt data 1 = version →
      i = 4 ∨ i = 5 → wordAt data i ∉ [0, 1, 0xFFFFFFFF] → Reads data (.error (-2))
  | header {current lastServed : Option Direction} : data.length = 144 →
      wordAt data 0 = magic → wordAt data 1 = version → Means (wordAt data 4) current →
      Means (wordAt data 5) lastServed →
      Reads data (.ok ⟨wordAt data 2, wordAt data 3, current, lastServed⟩)

/-! ### Reading byte by byte -/

namespace Reader

/-- The byte at a place, which has to be there. -/
def byte (data : List UInt8) (place : Nat) : Except OutOfBounds Nat :=
  match data[place]? with
  | some b => .ok b.toNat
  | none => .error (.byte place)

/-- The word whose bytes begin at a place, if the row is long enough. -/
def word? (data : List UInt8) (place : Nat) : Except OutOfBounds (Option Nat) :=
  if data.length < place + 4 then .ok none
  else do
    let b₀ ← byte data place
    let b₁ ← byte data (place + 1)
    let b₂ ← byte data (place + 2)
    let b₃ ← byte data (place + 3)
    return some (b₀ + 0x100 * b₁ + 0x10000 * b₂ + 0x1000000 * b₃)

/-- Checks a row of bytes and reads its header, word after word. -/
def header (data : List UInt8) : Except OutOfBounds (Except Defect Header) := do
  match ← word? data 0 with
  | none => return .error .malformed
  | some first =>
    if first ≠ magic then return .error .badMagic
    else
      match ← word? data 4 with
      | none => return .error .malformed
      | some second =>
        if second ≠ version then return .error .badVersion
        else if data.length ≠ size then return .error .malformed
        else
          match ← word? data 8, ← word? data 12, ← word? data 16, ← word? data 20 with
          | some capacity, some active, some current, some lastServed =>
            return do
              return {
                capacity := capacity
                active := active
                current := ← direction current
                lastServed := ← direction lastServed }
          | _, _, _, _ => return .error .malformed

end Reader

variable {data : List UInt8} {i : Nat}

theorem four_bytes (h : 4 * i + 4 ≤ data.length) : ∃ b₀ b₁ b₂ b₃ : UInt8,
    (data.drop (4 * i)).take 4 = [b₀, b₁, b₂, b₃] ∧ data[4 * i]? = some b₀ ∧
      data[4 * i + 1]? = some b₁ ∧ data[4 * i + 2]? = some b₂ ∧ data[4 * i + 3]? = some b₃ := by
  have hdrop : ∀ k, k < data.length → data.drop k = data[k]! :: data.drop (k + 1) := by
    intro k hk
    rw [List.drop_eq_getElem_cons hk, getElem!_pos data k hk]
  have hbyte : ∀ k, k < data.length → data[k]? = some data[k]! := by
    intro k hk
    rw [List.getElem?_eq_getElem hk, getElem!_pos data k hk]
  refine ⟨data[4 * i]!, data[4 * i + 1]!, data[4 * i + 2]!, data[4 * i + 3]!, ?_,
    hbyte _ (by omega), hbyte _ (by omega), hbyte _ (by omega), hbyte _ (by omega)⟩
  rw [hdrop _ (by omega), hdrop _ (by omega), hdrop _ (by omega), hdrop _ (by omega)]
  rfl

theorem wordAt_eq (h : 4 * i + 4 ≤ data.length) :
    wordAt data i = ofBytes ((data.drop (4 * i)).take 4) := by
  obtain ⟨b₀, b₁, b₂, b₃, hfour, h₀, h₁, h₂, h₃⟩ := four_bytes h
  simp only [wordAt, List.getD_eq_getElem?_getD, h₀, h₁, h₂, h₃, Option.getD_some, hfour, ofBytes]
  omega

theorem word?_eq (h : 4 * i + 4 ≤ data.length) : word? data i = some (wordAt data i) := by
  rw [word?, if_pos h, wordAt_eq h]

theorem word?_eq_none (h : data.length < 4 * i + 4) : word? data i = none :=
  if_neg (Nat.not_le.2 h)

theorem wordAt_lt (h : 4 * i + 4 ≤ data.length) : wordAt data i < Word.count32 := by
  obtain ⟨b₀, b₁, b₂, b₃, -, h₀, h₁, h₂, h₃⟩ := four_bytes h
  have hb₀ := b₀.toNat_lt
  have hb₁ := b₁.toNat_lt
  have hb₂ := b₂.toNat_lt
  have hb₃ := b₃.toNat_lt
  simp only [wordAt, List.getD_eq_getElem?_getD, h₀, h₁, h₂, h₃, Option.getD_some, Word.count32]
  omega

namespace Reader

theorem byte_eq {b : UInt8} {place : Nat} (h : data[place]? = some b) :
    byte data place = .ok b.toNat := by
  rw [byte, h]

theorem word?_eq (data : List UInt8) (i : Nat) :
    Reader.word? data (4 * i) = .ok (Frame.word? data i) := by
  by_cases h : 4 * i + 4 ≤ data.length
  · obtain ⟨b₀, b₁, b₂, b₃, -, h₀, h₁, h₂, h₃⟩ := four_bytes h
    rw [Frame.word?_eq h, Reader.word?, if_neg (Nat.not_lt.2 h), byte_eq h₀, byte_eq h₁, byte_eq h₂,
      byte_eq h₃]
    simp only [wordAt, List.getD_eq_getElem?_getD, h₀, h₁, h₂, h₃, Option.getD_some]
    rfl
  · rw [word?_eq_none (Nat.not_le.1 h), Reader.word?, if_pos (Nat.not_le.1 h)]

/-- No byte of a header is looked for beyond the end. -/
theorem header_eq (data : List UInt8) : Reader.header data = .ok (Frame.header data) := by
  have hfirst : Reader.word? data 0 = .ok (Frame.word? data 0) := word?_eq data 0
  have hsecond : Reader.word? data 4 = .ok (Frame.word? data 1) := word?_eq data 1
  have hcapacity : Reader.word? data 8 = .ok (Frame.word? data 2) := word?_eq data 2
  have hactive : Reader.word? data 12 = .ok (Frame.word? data 3) := word?_eq data 3
  have hcurrent : Reader.word? data 16 = .ok (Frame.word? data 4) := word?_eq data 4
  have hlast : Reader.word? data 20 = .ok (Frame.word? data 5) := word?_eq data 5
  have hbind : ∀ {α β : Type} (a : α) (f : α → Except OutOfBounds β),
      (Except.ok a >>= f) = f a := fun _ _ => rfl
  simp only [Reader.header, Frame.header, hfirst, hsecond, hcapacity, hactive, hcurrent, hlast,
    hbind]
  cases Frame.word? data 0 with
  | none => rfl
  | some first =>
    dsimp only
    split_ifs with hmagic hsize
    · rfl
    · cases Frame.word? data 1 with
      | none => rfl
      | some second =>
        dsimp only
        split_ifs
        · rfl
        · rfl
    -- a row of the right length has all words of a header
    · have hplaces : ∀ i, i < 36 → Frame.word? data i = some (wordAt data i) := by
        intro i hi
        exact Frame.word?_eq (by rw [not_not.1 hsize, size]; omega)
      rw [hplaces 1 (by decide), hplaces 2 (by decide), hplaces 3 (by decide),
        hplaces 4 (by decide), hplaces 5 (by decide)]
      dsimp only
      split_ifs
      · rfl
      · rfl

end Reader

/-! ### The rules -/

theorem direction_of_means {word : Nat} {d : Option Direction} (h : Means word d) :
    direction word = .ok d := by
  cases h <;> rfl

theorem means_or_not (word : Nat) : (∃ d, Means word d) ∨ word ∉ [0, 1, 0xFFFFFFFF] := by
  by_cases hmem : word ∈ [0, 1, 0xFFFFFFFF]
  · left
    simp only [List.mem_cons, List.not_mem_nil, or_false] at hmem
    obtain rfl | rfl | rfl := hmem
    · exact ⟨_, .outbound⟩
    · exact ⟨_, .inbound⟩
    · exact ⟨_, .nothing⟩
  · exact Or.inr hmem

theorem direction_of_notMem {word : Nat} (h : word ∉ [0, 1, 0xFFFFFFFF]) :
    direction word = .error .malformed := by
  simp only [List.mem_cons, List.not_mem_nil, or_false, not_or] at h
  obtain ⟨hout, hin, hnone⟩ := h
  have hcode : Direction.ofCode? word = none := by
    unfold Direction.ofCode?
    split
    · exact absurd rfl hout
    · exact absurd rfl hin
    · rfl
  have hword : word ≠ noDirection := hnone
  rw [direction, if_neg hword, hcode]

/-- Some rule applies to every row of bytes. -/
theorem exists_reads (data : List UInt8) : ∃ r, Reads data r := by
  by_cases hshort : data.length < 4
  · exact ⟨_, .noMagic hshort⟩
  by_cases hmagic : wordAt data 0 = magic
  · by_cases hmiddle : data.length < 8
    · exact ⟨_, .noVersion (Nat.not_lt.1 hshort) hmagic hmiddle⟩
    have hlong : 8 ≤ data.length := Nat.not_lt.1 hmiddle
    by_cases hversion : wordAt data 1 = version
    · by_cases hsize : data.length = 144
      · obtain ⟨current, hcurrent⟩ | hcurrent := means_or_not (wordAt data 4)
        · obtain ⟨lastServed, hlast⟩ | hlast := means_or_not (wordAt data 5)
          · exact ⟨_, .header hsize hmagic hversion hcurrent hlast⟩
          · exact ⟨_, .badDirection hsize hmagic hversion (Or.inr rfl) hlast⟩
        · exact ⟨_, .badDirection hsize hmagic hversion (Or.inl rfl) hcurrent⟩
      · exact ⟨_, .badLength hlong hmagic hversion hsize⟩
    · exact ⟨_, .badVersion hlong hmagic hversion⟩
  · exact ⟨_, .badMagic (Nat.not_lt.1 hshort) hmagic⟩

theorem header_of_begun (hsize : data.length = 144) (hmagic : wordAt data 0 = magic)
    (hversion : wordAt data 1 = version) : header data =
      (direction (wordAt data 4)).bind fun current =>
        (direction (wordAt data 5)).map fun lastServed =>
          ⟨wordAt data 2, wordAt data 3, current, lastServed⟩ := by
  have hword : ∀ i, i < 36 → word? data i = some (wordAt data i) :=
    fun i hi => word?_eq (by omega)
  rw [header, hword 0 (by decide), hword 1 (by decide), hword 2 (by decide), hword 3 (by decide),
    hword 4 (by decide), hword 5 (by decide), hmagic, hversion]
  simp only [hsize, size, ne_eq, not_true_eq_false, ↓reduceIte]
  rfl

/-- Whatever a rule says is what is read. -/
theorem header_of_reads {r : Except Int Header} (h : Reads data r) :
    (header data).mapError Defect.code = r := by
  have hword : ∀ i, 4 * i + 4 ≤ data.length → word? data i = some (wordAt data i) :=
    fun i => word?_eq
  cases h with
  | noMagic hshort =>
    rw [header, word?_eq_none hshort]
    rfl
  | badMagic hlong hmagic =>
    rw [header, hword 0 hlong]
    simp only [hmagic, ne_eq, not_false_eq_true, ↓reduceIte]
    rfl
  | noVersion hlong hmagic hshort =>
    rw [header, hword 0 hlong, hmagic, word?_eq_none hshort]
    rfl
  | badVersion hlong hmagic hversion =>
    rw [header, hword 0 (by omega), hword 1 hlong, hmagic]
    simp only [hversion, ne_eq, not_true_eq_false, not_false_eq_true, ↓reduceIte]
    rfl
  | badLength hlong hmagic hversion hsize =>
    rw [header, hword 0 (by omega), hword 1 hlong, hmagic, hversion]
    simp only [hsize, size, ne_eq, not_true_eq_false, not_false_eq_true, ↓reduceIte]
    rfl
  | badDirection hsize hmagic hversion hi hmeans =>
    rw [header_of_begun hsize hmagic hversion]
    obtain rfl | rfl := hi
    · rw [direction_of_notMem hmeans]
      rfl
    -- the first of two bad directions is reported like the second
    · rw [direction_of_notMem hmeans]
      obtain ⟨current, hcurrent⟩ | hcurrent := means_or_not (wordAt data 4)
      · rw [direction_of_means hcurrent]
        rfl
      · rw [direction_of_notMem hcurrent]
        rfl
  | header hsize hmagic hversion hcurrent hlast =>
    rw [header_of_begun hsize hmagic hversion, direction_of_means hcurrent,
      direction_of_means hlast]
    rfl

/-- Exactly one rule applies to a row of bytes, and it says what is read. -/
theorem reads_iff {r : Except Int Header} :
    (header data).mapError Defect.code = r ↔ Reads data r := by
  refine ⟨fun h => ?_, header_of_reads⟩
  obtain ⟨r', hr'⟩ := exists_reads data
  rw [← h, header_of_reads hr']
  exact hr'

/-! ### The rows that have a header -/

theorem means_iff {word : Nat} {d : Option Direction} : Means word d ↔ word = directionWord d := by
  constructor
  · intro h
    cases h <;> rfl
  · rintro rfl
    cases d with
    | none => exact .nothing
    | some d =>
      cases d with
      | outbound => exact .outbound
      | inbound => exact .inbound

theorem take_words {n : Nat} (h : 4 * n ≤ data.length) :
    data.take (4 * n) = ((List.range n).map (wordAt data)).flatMap (bytes 4) := by
  induction n with
  | zero => rfl
  | succ n ih =>
    have hfour : ((data.drop (4 * n)).take 4).length = 4 := by
      rw [List.length_take, List.length_drop]
      omega
    have hbytes : bytes 4 (wordAt data n) = (data.drop (4 * n)).take 4 := by
      have hback := bytes_ofBytes ((data.drop (4 * n)).take 4)
      rwa [hfour, ← wordAt_eq h] at hback
    rw [Nat.mul_succ, List.take_add, ih (by omega), List.range_succ, List.map_append,
      List.flatMap_append, List.map_singleton, List.flatMap_singleton, hbytes]

/-- The words that stand before the counts by cell. -/
def Header.words (h : Header) : List Nat :=
  [magic, version, h.capacity, h.active, directionWord h.current, directionWord h.lastServed]

/-- A row of bytes has a header exactly if it begins with the words of one and is as long as a
frame. -/
theorem header_eq_ok_iff {h : Header} : header data = .ok h ↔
    h.capacity < Word.count32 ∧ h.active < Word.count32 ∧
      ∃ rest : List UInt8, rest.length = 120 ∧ data = h.words.flatMap (bytes 4) ++ rest := by
  constructor
  · intro hok
    have hreads : Reads data (.ok h) := reads_iff.1 (by rw [hok]; rfl)
    cases hreads with
    | header hsize hmagic hversion hcurrent hlast =>
      refine ⟨wordAt_lt (by omega), wordAt_lt (by omega), data.drop 24, ?_, ?_⟩
      · rw [List.length_drop, hsize]
      · have hwords : data.take (4 * 6) = _ := take_words (n := 6) (by omega)
        rw [Header.words, ← means_iff.1 hcurrent, ← means_iff.1 hlast, ← hmagic, ← hversion]
        exact (List.take_append_drop 24 data).symm.trans (congrArg (· ++ data.drop 24) hwords)
  · rintro ⟨hcapacity, hactive, rest, hrest, rfl⟩
    have hsize : (h.words.flatMap (bytes 4) ++ rest).length = 144 := by
      rw [List.length_append, length_flatMap_bytes, hrest]
      rfl
    have hword : ∀ i x, h.words[i]? = some x → i < 36 → x < Word.count32 →
        wordAt (h.words.flatMap (bytes 4) ++ rest) i = x := by
      intro i x hx hi hlt
      have hread := word?_flatMap hx rest
      rw [word?_eq (by omega), Nat.mod_eq_of_lt hlt] at hread
      exact Option.some.inj hread
    have hdirection : ∀ d, directionWord d < Word.count32 := by
      intro d
      cases d with
      | none => decide
      | some d => cases d <;> decide
    rw [header_of_begun hsize (hword 0 magic rfl (by decide) (by decide))
      (hword 1 version rfl (by decide) (by decide)), hword 2 _ rfl (by decide) hcapacity,
      hword 3 _ rfl (by decide) hactive, hword 4 _ rfl (by decide) (hdirection _),
      hword 5 _ rfl (by decide) (hdirection _), direction_of_means (means_iff.2 rfl),
      direction_of_means (means_iff.2 rfl)]
    rfl

/-- **Which header is read from a row of bytes.**  No byte is looked for beyond the end.  What is
read is what the rules say: they apply to every row of bytes, and never two of them with different
outcomes.  So a row has a header exactly if it is as long as a frame and begins with the words of
one, whatever stands behind them.  The number for a row of bytes is 0 exactly if it has a header,
and otherwise the number of the rule. -/
theorem header_reads (data : List UInt8) :
    Reader.header data = .ok (header data) ∧
      (∀ r, (header data).mapError Defect.code = r ↔ Reads data r) ∧
      (∀ h, Reads data (.ok h) ↔ h.capacity < Word.count32 ∧ h.active < Word.count32 ∧
        ∃ rest : List UInt8, rest.length = 120 ∧ data = h.words.flatMap (bytes 4) ++ rest) ∧
      ∀ code, Handle.validate (some data) = code ↔
        Reads data (.error code) ∨ code = 0 ∧ ∃ h, Reads data (.ok h) := by
  refine ⟨Reader.header_eq data, fun _ => reads_iff, fun h => ?_, fun code => ?_⟩
  · rw [← header_eq_ok_iff, ← reads_iff]
    cases header data with
    | ok h' =>
      exact ⟨fun heq => congrArg Except.ok (Except.ok.inj heq),
        fun heq => congrArg Except.ok (Except.ok.inj heq)⟩
    | error defect => exact ⟨nofun, nofun⟩
  · have hverdict : Handle.validate (some data) = verdict data := rfl
    simp only [hverdict, verdict, ← reads_iff]
    cases header data with
    | ok h' =>
      constructor
      · rintro rfl
        exact Or.inr ⟨rfl, h', rfl⟩
      · rintro (herror | ⟨rfl, -⟩)
        · cases herror
        · rfl
    | error defect =>
      constructor
      · rintro rfl
        exact Or.inl rfl
      · rintro (herror | ⟨-, h, hok⟩)
        · exact Except.error.inj herror
        · cases hok

/-- A row that ends within the magic word, and a direction word whose lowest byte is a direction. -/
example : Handle.validate (some [0x42, 0x55, 0x53]) = -2 ∧
    direction 0x100 = .error .malformed := by decide

end Frame

end HalfDuplex
