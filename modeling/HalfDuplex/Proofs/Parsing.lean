import HalfDuplex.Json.Parser
import HalfDuplex.Json.Printer
import HalfDuplex.Proofs.Scanning

/-!
# What is written is read

Both ways to write a value spell its tokens, and the reader makes the value of them again.  This
holds of every value, however deep it is nested, and also of those whose content no record accepts.

* `Place.run_tokens` : the reader goes through the tokens of a value and has the value then.
* `Value.spelled_flatMap`, `Value.spelled_spread` : both texts of a value spell its tokens.
* `Value.read?_write`, `Value.read?_writeLines` : both texts of a value read as that value.

A value is followed by something in all of these statements: the induction goes into arrays and
objects, where the rest of the document follows.
-/

namespace HalfDuplex

namespace Json

/-! ### The reader -/

namespace Place

theorem run_cons (place : Place) (stack : List OpenValue) (t : Token) (ts : List Token) :
    run place stack (t :: ts) = (place.step stack t).bind fun (p, s) => run p s ts := by
  cases h : place.step stack t <;> simp [run, h]

theorem exists_tokens (v : Value) : ∃ t ts, v.tokens = t :: ts ∧ t ≠ .closeArray := by
  cases v <;> exact ⟨_, _, rfl, nofun⟩

theorem run_firstItem (v : Value) (rest : List Value) (stack : List OpenValue) (ts : List Token) :
    run .firstItem (.array [] :: stack) (Value.itemTokens (v :: rest) ++ ts) =
      run .value (.array [] :: stack) (Value.itemTokens (v :: rest) ++ ts) := by
  have hsame : ∀ us, run .firstItem (.array [] :: stack) (v.tokens ++ us) =
      run .value (.array [] :: stack) (v.tokens ++ us) := by
    intro us
    obtain ⟨t, vs, htokens, ht⟩ := exists_tokens v
    rw [htokens, List.cons_append, run_cons, run_cons]
    cases t with
    | closeArray => exact absurd rfl ht
    | _ => rfl
  cases rest with
  | nil => exact hsame ts
  | cons w rest =>
    rw [Value.itemTokens, List.append_assoc]
    exact hsame _

theorem run_firstKey (k : Option String) (v : Value) (rest : List (Option String × Value))
    (stack : List OpenValue) (ts : List Token) :
    run .firstKey (.object [] :: stack) (Value.memberTokens ((k, v) :: rest) ++ ts) =
      run .key (.object [] :: stack) (Value.memberTokens ((k, v) :: rest) ++ ts) := by
  have hsame : ∀ us, run .firstKey (.object [] :: stack) (.string k :: us) =
      run .key (.object [] :: stack) (.string k :: us) := by
    intro us
    rw [run_cons, run_cons]
    rfl
  cases rest with
  | nil => exact hsame _
  | cons m rest => exact hsame _

mutual

/-- The reader goes through the tokens of a value and has the value then. -/
theorem run_tokens (v : Value) (stack : List OpenValue) (ts : List Token) :
    run .value stack (v.tokens ++ ts) = run (.done v) stack ts := by
  match v with
  | .null | .bool _ | .number _ | .string _ => exact run_cons _ _ _ _
  | .array [] => rfl
  | .array (v :: rest) =>
    rw [Value.tokens, List.append_assoc, List.cons_append, run_cons]
    exact (run_firstItem v rest stack _).trans (run_itemTokens (v :: rest) nofun [] stack ts)
  | .object [] => rfl
  | .object ((k, v) :: rest) =>
    rw [Value.tokens, List.append_assoc, List.cons_append, run_cons]
    exact (run_firstKey k v rest stack _).trans
      (run_memberTokens ((k, v) :: rest) nofun [] stack ts)

theorem run_itemTokens (items : List Value) (hne : items ≠ []) (read : List Value)
    (stack : List OpenValue) (ts : List Token) :
    run .value (.array read :: stack) (Value.itemTokens items ++ .closeArray :: ts) =
      run (.done (.array (read.reverse ++ items))) stack ts := by
  match items with
  | [] => exact absurd rfl hne
  | [v] =>
    rw [Value.itemTokens, run_tokens v, run_cons]
    simp [step]
  | v :: w :: rest =>
    have hrest := run_itemTokens (w :: rest) nofun (v :: read) stack ts
    rw [List.reverse_cons, List.append_assoc] at hrest
    rw [Value.itemTokens, List.append_assoc, run_tokens v, List.cons_append, run_cons]
    exact hrest

theorem run_memberTokens (members : List (Option String × Value)) (hne : members ≠ [])
    (read : List (Option String × Value)) (stack : List OpenValue) (ts : List Token) :
    run .key (.object read :: stack) (Value.memberTokens members ++ .closeObject :: ts) =
      run (.done (.object (read.reverse ++ members))) stack ts := by
  -- behind the key and the colon stands the value of the member
  have hmember : ∀ k us, run .key (.object read :: stack) (.string k :: .colon :: us) =
      run .value (.member k :: .object read :: stack) us := by
    intro k us
    rw [run_cons]
    exact run_cons _ _ _ _
  match members with
  | [] => exact absurd rfl hne
  | [(k, v)] =>
    rw [Value.memberTokens, List.cons_append, List.cons_append, hmember, run_tokens v, run_cons]
    simp [step]
  | (k, v) :: m :: rest =>
    have hrest := run_memberTokens (m :: rest) nofun ((k, v) :: read) stack ts
    rw [List.reverse_cons, List.append_assoc] at hrest
    rw [Value.memberTokens, List.append_assoc, List.cons_append, List.cons_append, hmember,
      run_tokens v, List.cons_append, run_cons]
    exact hrest

end

end Place

namespace Value

/-- The tokens of a value spell that value. -/
theorem ofTokens?_tokens (v : Value) : ofTokens? v.tokens = some v := by
  have hrun := Place.run_tokens v [] []
  rwa [List.append_nil] at hrun

/-! ### Without blanks -/

mutual

theorem spelled_flatMap (v : Value) : Spelled (v.tokens.flatMap Token.spell) v.tokens := by
  match v with
  | null | bool _ | number _ | string _ =>
    rw [tokens, List.flatMap_cons]
    exact .token (fun _ => nofun) .nil
  | array items =>
    rw [tokens, List.flatMap_append, List.flatMap_cons]
    exact .append (.closed .openArray rfl (spelled_flatMap_items items)) (ends_cons [] rfl)
      (.single .closeArray)
  | object members =>
    rw [tokens, List.flatMap_append, List.flatMap_cons]
    exact .append (.closed .openObject rfl (spelled_flatMap_members members)) (ends_cons [] rfl)
      (.single .closeObject)

theorem spelled_flatMap_items (items : List Value) :
    Spelled ((itemTokens items).flatMap Token.spell) (itemTokens items) := by
  match items with
  | [] => exact .nil
  | [v] => exact spelled_flatMap v
  | v :: w :: rest =>
    rw [itemTokens, List.flatMap_append, List.flatMap_cons]
    exact .append (spelled_flatMap v) (ends_cons _ rfl)
      (.closed .comma rfl (spelled_flatMap_items (w :: rest)))

theorem spelled_flatMap_members (members : List (Option String × Value)) :
    Spelled ((memberTokens members).flatMap Token.spell) (memberTokens members) := by
  match members with
  | [] => exact .nil
  | [(k, v)] =>
    rw [memberTokens, List.flatMap_cons, List.flatMap_cons]
    exact .closed (.string k) rfl (.closed .colon rfl (spelled_flatMap v))
  | (k, v) :: m :: rest =>
    rw [memberTokens, List.flatMap_append, List.flatMap_cons, List.flatMap_cons,
      List.flatMap_cons]
    exact .append (.closed (.string k) rfl (.closed .colon rfl (spelled_flatMap v)))
      (ends_cons _ rfl) (.closed .comma rfl (spelled_flatMap_members (m :: rest)))

end

/-! ### Over several lines -/

theorem isSpace_indentation (depth : Nat) : ∀ c ∈ indentation depth, Scan.isSpace c = true := by
  intro c hc
  rcases List.mem_cons.1 hc with rfl | hc
  · rfl
  · rw [List.eq_of_mem_replicate hc]
    rfl

theorem ends_indentation (depth : Nat) (cs : List Char) : Ends (indentation depth ++ cs) :=
  ends_cons _ rfl

mutual

theorem spelled_spread (v : Value) (depth : Nat) : Spelled (v.spread depth) v.tokens := by
  match v with
  | null => exact .single .null
  | bool b => exact .single (.bool b)
  | number n => exact .single (.number n)
  | string s => exact .single (.string s)
  | array [] => exact .closed .openArray rfl (.single .closeArray)
  | array (v :: rest) =>
    rw [spread, tokens, List.append_assoc]
    exact .append (.closed .openArray rfl (spelled_spreadItems (v :: rest) (depth + 1)))
      (ends_indentation depth _) (.blanks (isSpace_indentation depth) (.single .closeArray))
  | object [] => exact .closed .openObject rfl (.single .closeObject)
  | object (m :: rest) =>
    rw [spread, tokens, List.append_assoc]
    exact .append (.closed .openObject rfl (spelled_spreadMembers (m :: rest) (depth + 1)))
      (ends_indentation depth _) (.blanks (isSpace_indentation depth) (.single .closeObject))

theorem spelled_spreadItems (items : List Value) (depth : Nat) :
    Spelled (spreadItems depth items) (itemTokens items) := by
  match items with
  | [] => exact .nil
  | [v] => exact .blanks (isSpace_indentation depth) (spelled_spread v depth)
  | v :: w :: rest =>
    rw [spreadItems, itemTokens]
    exact .append (.blanks (isSpace_indentation depth) (spelled_spread v depth)) (ends_cons _ rfl)
      (.closed .comma rfl (spelled_spreadItems (w :: rest) depth))

theorem spelled_spreadMembers (members : List (Option String × Value)) (depth : Nat) :
    Spelled (spreadMembers depth members) (memberTokens members) := by
  have hmember : ∀ (k : Option String) (v : Value), Spelled (v.spread depth) v.tokens →
      Spelled (indentation depth ++ Literal.spell k ++ ':' :: ' ' :: v.spread depth)
        (.string k :: .colon :: v.tokens) := by
    intro k v hv
    rw [List.append_assoc]
    exact .blanks (isSpace_indentation depth)
      (.closed (.string k) rfl (.closed .colon rfl (.blank rfl hv)))
  match members with
  | [] => exact .nil
  | [(k, v)] => exact hmember k v (spelled_spread v depth)
  | (k, v) :: m :: rest =>
    rw [spreadMembers, memberTokens]
    exact .append (hmember k v (spelled_spread v depth)) (ends_cons _ rfl)
      (.closed .comma rfl (spelled_spreadMembers (m :: rest) depth))

end

/-! ### Both texts -/

/-- A text that spells the tokens of a value reads as that value. -/
theorem read?_of_spelled {v : Value} {cs : List Char} (h : Spelled cs v.tokens) :
    read? (String.ofList cs) = some v := by
  rw [read?, String.toList_ofList, h.scan, Option.bind_some, ofTokens?_tokens]

/-- **The text of a value without blanks reads as that value.** -/
theorem read?_write (v : Value) : read? v.write = some v := read?_of_spelled (spelled_flatMap v)

/-- **The lines of a value read as that value.** -/
theorem read?_writeLines (v : Value) : read? v.writeLines = some v :=
  read?_of_spelled (spelled_spread v 0)

end Value

end Json

end HalfDuplex
