import HalfDuplex.Snapshot.Frame
import Mathlib.Algebra.Group.Nat.Defs
import Mathlib.Data.List.Basic

/-!
# What a frame tells

A frame is a row of words of fixed widths, each written as its lowest bytes.  So every word can be
read back from its place, up to the bits that it lost, and nothing else decides what the frame is.

* `Frame.ofBytes_bytes` : the bytes of a number spell it, up to the bits that they leave out.
* `Frame.flatMap_bytes_inj` : a row of words decides its members, up to these bits.
* `Frame.word?_flatMap` : each word of a row can be read back.
* `Snapshot.SameFrame` : what has to agree for two snapshots to have the same frame.
* `Frame.encode_spec` : what a frame tells, and that it tells nothing else.
-/

namespace HalfDuplex

/-- The two snapshots agree in all that a frame tells: directions and tallies, and the other counts
up to multiples of the number of 32-bit words.  Only the peak is left out. -/
structure Snapshot.SameFrame (s s' : Snapshot) : Prop where
  capacity : s.capacity % Word.count32 = s'.capacity % Word.count32
  active : s.active % Word.count32 = s'.active % Word.count32
  current : s.current = s'.current
  lastServed : s.lastServed = s'.lastServed
  waiting : ∀ c, s.waiting.get c % Word.count32 = s'.waiting.get c % Word.count32
  held : ∀ c, s.held.get c % Word.count32 = s'.held.get c % Word.count32
  /-- All counters but the peak. -/
  stats : s.stats = { s'.stats with peakActive := s.stats.peakActive }

namespace Frame

/-! ### Bytes of a number -/

@[simp] theorem length_bytes (width n : Nat) : (bytes width n).length = width := by
  induction width generalizing n with
  | zero => rfl
  | succ width ih => rw [bytes, List.length_cons, ih]

theorem ofBytes_bytes (width n : Nat) : ofBytes (bytes width n) = n % 256 ^ width := by
  induction width generalizing n with
  | zero => rw [bytes, ofBytes, Nat.pow_zero, Nat.mod_one]
  | succ width ih =>
    have hlow : (UInt8.ofNat n).toNat = n % 256 := UInt8.toNat_ofNat'
    rw [bytes, ofBytes, ih, hlow, Nat.pow_succ, Nat.mul_comm (256 ^ width), Nat.mod_mul]

theorem bytes_ofBytes (data : List UInt8) : bytes data.length (ofBytes data) = data := by
  induction data with
  | nil => rfl
  | cons byte data ih =>
    have hbyte : byte.toNat < 256 := byte.toNat_lt
    have hlow : UInt8.ofNat (byte.toNat + 256 * ofBytes data) = byte := by
      refine UInt8.toNat.inj ?_
      have htoNat : (UInt8.ofNat (byte.toNat + 256 * ofBytes data)).toNat =
          (byte.toNat + 256 * ofBytes data) % 256 := UInt8.toNat_ofNat'
      rw [htoNat]
      omega
    have hhigh : (byte.toNat + 256 * ofBytes data) / 256 = ofBytes data := by omega
    rw [List.length_cons, ofBytes, bytes, hlow, hhigh, ih]

/-- Numbers have the same bytes exactly if they differ only in bits that the bytes leave out. -/
theorem bytes_inj {width n n' : Nat} :
    bytes width n = bytes width n' ↔ n % 256 ^ width = n' % 256 ^ width := by
  rw [← ofBytes_bytes, ← ofBytes_bytes]
  refine ⟨congrArg ofBytes, fun h => ?_⟩
  have hback := bytes_ofBytes (bytes width n)
  have hback' := bytes_ofBytes (bytes width n')
  rw [length_bytes] at hback hback'
  rw [← hback, ← hback', h]

/-! ### Rows of words -/

theorem append_inj_iff {α : Type} {xs xs' ys ys' : List α} (h : xs.length = xs'.length) :
    xs ++ ys = xs' ++ ys' ↔ xs = xs' ∧ ys = ys' := by
  refine ⟨fun heq => List.append_inj heq h, ?_⟩
  rintro ⟨rfl, rfl⟩
  rfl

theorem flatMap_bytes_inj {width : Nat} {xs ys : List Nat} (h : xs.length = ys.length) :
    xs.flatMap (bytes width) = ys.flatMap (bytes width) ↔
      xs.map (· % 256 ^ width) = ys.map (· % 256 ^ width) := by
  induction xs generalizing ys with
  | nil =>
    cases ys with
    | nil => exact iff_of_true rfl rfl
    | cons => cases h
  | cons x xs ih =>
    cases ys with
    | nil => cases h
    | cons y ys =>
      have hlength : (bytes width x).length = (bytes width y).length := by
        rw [length_bytes, length_bytes]
      rw [List.flatMap_cons, List.flatMap_cons, append_inj_iff hlength, bytes_inj,
        ih (Nat.succ.inj h), List.map_cons, List.map_cons, List.cons.injEq]

theorem length_flatMap_bytes (width : Nat) (xs : List Nat) :
    (xs.flatMap (bytes width)).length = xs.length * width := by
  induction xs with
  | nil => exact (Nat.zero_mul _).symm
  | cons x xs ih =>
    rw [List.flatMap_cons, List.length_append, length_bytes, ih, List.length_cons, Nat.succ_mul,
      Nat.add_comm]

theorem word?_zero (x : Nat) (rest : List UInt8) :
    word? (bytes 4 x ++ rest) 0 = some (x % Word.count32) := by
  have hlong : 4 * 0 + 4 ≤ (bytes 4 x ++ rest).length := by
    rw [List.length_append, length_bytes]
    omega
  have hfour : (bytes 4 x ++ rest).take 4 = bytes 4 x := List.take_left' (length_bytes 4 x)
  rw [word?, if_pos hlong, Nat.mul_zero, List.drop_zero, hfour, ofBytes_bytes]
  rfl

theorem word?_succ (x i : Nat) (rest : List UInt8) :
    word? (bytes 4 x ++ rest) (i + 1) = word? rest i := by
  have hdrop : (bytes 4 x ++ rest).drop (4 * (i + 1)) = rest.drop (4 * i) := by
    rw [Nat.mul_succ, Nat.add_comm, ← List.drop_drop, List.drop_left' (length_bytes 4 x)]
  have hlong : 4 * (i + 1) + 4 ≤ (bytes 4 x ++ rest).length ↔ 4 * i + 4 ≤ rest.length := by
    rw [List.length_append, length_bytes]
    omega
  simp only [word?, hdrop, hlong]

theorem word?_flatMap {xs : List Nat} {i x : Nat} (h : xs[i]? = some x) (rest : List UInt8) :
    word? (xs.flatMap (bytes 4) ++ rest) i = some (x % Word.count32) := by
  induction xs generalizing i with
  | nil => cases h
  | cons y xs ih =>
    rw [List.flatMap_cons, List.append_assoc]
    cases i with
    | zero =>
      cases h
      exact word?_zero _ _
    | succ i =>
      rw [word?_succ]
      exact ih h

/-! ### Frames -/

variable {s s' : Snapshot}

theorem direction_directionWord (d : Option Direction) :
    direction (directionWord d % Word.count32) = .ok d := by
  cases d with
  | none => rfl
  | some d => cases d <;> rfl

theorem directionWord_inj {d d' : Option Direction} :
    directionWord d % Word.count32 = directionWord d' % Word.count32 ↔ d = d' := by
  refine ⟨fun h => ?_, fun h => by rw [h]⟩
  have hword := direction_directionWord d
  rw [h, direction_directionWord] at hword
  exact (Except.ok.inj hword).symm

theorem length_encode (s : Snapshot) : (encode s).length = size := by
  rw [encode, List.length_append, length_flatMap_bytes, length_flatMap_bytes]
  rfl

theorem word?_encode {i x : Nat} (h : (words s)[i]? = some x) :
    word? (encode s) i = some (x % Word.count32) :=
  word?_flatMap h _

/-- What can be read from a frame. -/
theorem header_encode (s : Snapshot) : header (encode s) =
    .ok ⟨s.capacity % Word.count32, s.active % Word.count32, s.current, s.lastServed⟩ := by
  have hmagic : word? (encode s) 0 = some magic := word?_encode (x := magic) rfl
  have hversion : word? (encode s) 1 = some version := word?_encode (x := version) rfl
  have hcapacity : word? (encode s) 2 = some (s.capacity % Word.count32) := word?_encode rfl
  have hactive : word? (encode s) 3 = some (s.active % Word.count32) := word?_encode rfl
  have hcurrent : word? (encode s) 4 = some (directionWord s.current % Word.count32) :=
    word?_encode rfl
  have hlast : word? (encode s) 5 = some (directionWord s.lastServed % Word.count32) :=
    word?_encode rfl
  simp only [header, hmagic, hversion, hcapacity, hactive, hcurrent, hlast, length_encode,
    direction_directionWord, ne_eq, not_true_eq_false, ↓reduceIte]
  rfl

theorem map_toList_inj {f f' : PerCell Nat} : f.toList.map (· % Word.count32) =
    f'.toList.map (· % Word.count32) ↔
      ∀ c, f.get c % Word.count32 = f'.get c % Word.count32 := by
  rw [PerCell.toList_eq_map_get, PerCell.toList_eq_map_get, List.map_map, List.map_map,
    List.map_inj_left]
  exact ⟨fun h c => h c (Cell.mem_all c), fun h c _ => h c⟩

/-- The words of two snapshots agree, up to their lost bits, exactly if all that they tell does. -/
theorem words_inj : (words s).map (· % Word.count32) = (words s').map (· % Word.count32) ↔
    (s.capacity % Word.count32 = s'.capacity % Word.count32 ∧
        s.active % Word.count32 = s'.active % Word.count32 ∧
        s.current = s'.current ∧ s.lastServed = s'.lastServed) ∧
      (∀ c, s.waiting.get c % Word.count32 = s'.waiting.get c % Word.count32) ∧
      ∀ c, s.held.get c % Word.count32 = s'.held.get c % Word.count32 := by
  simp only [words, List.append_assoc, List.map_append]
  rw [append_inj_iff, append_inj_iff, map_toList_inj, map_toList_inj]
  · simp only [List.map_cons, List.map_nil, List.cons.injEq, directionWord_inj, and_true, true_and]
  · rfl
  · rfl

theorem tallies_inj {s s' : Stats} :
    s.tallies = s'.tallies ↔ s = { s' with peakActive := s.peakActive } := by
  constructor
  · intro h
    simp only [Stats.tallies, List.cons.injEq, and_true] at h
    obtain ⟨h1, h2, h3, h4, h5, h6, h7, h8, h9, h10, h11⟩ := h
    rw [← h1, ← h2, ← h3, ← h4, ← h5, ← h6, ← h7, ← h8, ← h9, ← h10, ← h11]
  · intro h
    rw [h]
    rfl

theorem map_mod_of_words {xs : List Nat} (h : ∀ n ∈ xs, n ≤ Word.max64) :
    xs.map (· % Word.count64) = xs := by
  have hid : xs.map (· % Word.count64) = xs.map id :=
    List.map_congr_left fun n hn => Nat.mod_eq_of_lt (Nat.lt_of_le_pred (by decide) (h n hn))
  rw [hid, List.map_id]

/-- Two frames are the same exactly if all words and all tallies agree up to their lost bits. -/
theorem encode_inj : encode s = encode s' ↔
    (words s).map (· % Word.count32) = (words s').map (· % Word.count32) ∧
      s.stats.tallies.map (· % Word.count64) = s'.stats.tallies.map (· % Word.count64) := by
  have hlength : ((words s).flatMap (bytes 4)).length = ((words s').flatMap (bytes 4)).length := by
    rw [length_flatMap_bytes, length_flatMap_bytes]
    rfl
  rw [encode, encode, append_inj_iff hlength]
  exact and_congr (flatMap_bytes_inj rfl) (flatMap_bytes_inj rfl)

/-- **What a frame tells.**  The frame of any snapshot has the length of a frame.  Its header can be
read back: the capacity and the held slots up to multiples of the number of 32-bit words, and the
two directions as they are.  The rest is told too: as long as the tallies are 64-bit words, two
snapshots have the same frame exactly if they agree in everything but the peak, the counts other
than tallies again up to such multiples. -/
theorem encode_spec (s : Snapshot) : (encode s).length = size ∧
    header (encode s) =
      .ok ⟨s.capacity % Word.count32, s.active % Word.count32, s.current, s.lastServed⟩ ∧
    ∀ s' : Snapshot, (∀ n ∈ s.stats.tallies, n ≤ Word.max64) →
      (∀ n ∈ s'.stats.tallies, n ≤ Word.max64) → (encode s = encode s' ↔ s.SameFrame s') := by
  refine ⟨length_encode s, header_encode s, fun s' hwords hwords' => ?_⟩
  rw [encode_inj, words_inj, map_mod_of_words hwords, map_mod_of_words hwords', tallies_inj]
  constructor
  · rintro ⟨⟨⟨hcapacity, hactive, hcurrent, hlast⟩, hwaiting, hheld⟩, hstats⟩
    exact ⟨hcapacity, hactive, hcurrent, hlast, hwaiting, hheld, hstats⟩
  · intro h
    exact ⟨⟨⟨h.capacity, h.active, h.current, h.lastServed⟩, h.waiting, h.held⟩, h.stats⟩

/-- A capacity beyond the 32-bit words and a peak are lost in the frame, and one refused release is
not. -/
theorem encode_spec_wide :
    let s : Snapshot := ⟨1, 1, some .inbound, some .inbound, ⟨0, 2, 0, 0⟩, ⟨0, 0, 0, 1⟩,
      { admissions := 1, immediate := 1, inbound := 1, normal := 1, cycles := 1, peakActive := 1 }⟩
    let wide : Snapshot := { s with
      capacity := Word.count32 + 1
      stats := { s.stats with peakActive := 2 } }
    let other : Snapshot := { s with stats := { s.stats with rejectedReleases := 1 } }
    header (encode wide) = .ok ⟨1, 1, some .inbound, some .inbound⟩ ∧ encode s = encode wide ∧
      s ≠ wide ∧ encode s ≠ encode other := by
  intro s wide other
  obtain ⟨-, -, hframe⟩ := encode_spec s
  obtain ⟨-, hheader, -⟩ := encode_spec wide
  have hcapacity : wide.capacity % Word.count32 = 1 := by decide
  rw [hcapacity] at hheader
  have hwide : s.SameFrame wide :=
    ⟨by decide, rfl, rfl, rfl, fun _ => rfl, fun _ => rfl, rfl⟩
  have hother : ¬ s.SameFrame other := by
    intro h
    have hstats := congrArg Stats.rejectedReleases h.stats
    exact absurd hstats (by decide)
  exact ⟨hheader, (hframe wide (by decide) (by decide)).2 hwide, by decide,
    fun heq => hother ((hframe other (by decide) (by decide)).1 heq)⟩

end Frame

end HalfDuplex
