import NativeBinding.Proofs.Json.Scanning

/-! # Indented texts are read back

The reader takes the tokens of a value onto its stack of open containers and goes on as it does when
the value is complete. The induction is over the value, for every stack that leaves room for its
depth; within a container it goes over the items, with those before them in the frame.
-/

set_option autoImplicit false

namespace NativeBinding.Json

variable {stack : List Frame} {rest : List Token}

/-- The reader goes on behind the tokens of a value as it does with the complete value. -/
def Reads (value : Json) (stack : List Frame) : Prop :=
  ∀ expected rest, expected = .value ∨ expected = .firstItem →
    takeAll ⟨stack, expected⟩ (tokens value ++ rest) =
      (complete value stack).bind fun r => takeAll r rest

theorem take_value {expected : Expected} {token : Token}
    (hExpected : expected = .value ∨ expected = .firstItem) (hToken : token ≠ .closeArray) :
    take ⟨stack, expected⟩ token = valueToken token stack := by
  rcases hExpected with rfl | rfl
  · rfl
  · cases token <;> first | rfl | exact absurd rfl hToken

theorem reads_leaf {value : Json} {token : Token} (hTokens : tokens value = [token])
    (hToken : token ≠ .closeArray) (hComplete : valueToken token stack = complete value stack) :
    Reads value stack := by
  intro expected rest hExpected
  rw [hTokens, List.singleton_append, takeAll, take_value hExpected hToken, hComplete]

theorem takeAll_items {items : List Json} (done : List Json) (hItems : items ≠ [])
    (hReads : ∀ item ∈ items, ∀ done, Reads item (.array done :: stack)) {expected : Expected}
    (hExpected : expected = .value ∨ expected = .firstItem) :
    takeAll ⟨.array done :: stack, expected⟩ (joined (items.map tokens) ++ .closeArray :: rest) =
      (complete (array (done.reverse ++ items)) stack).bind fun r => takeAll r rest := by
  induction items generalizing done expected with
  | nil => exact absurd rfl hItems
  | cons item items ih =>
    obtain ⟨hItem, hRest⟩ := List.forall_mem_cons.mp hReads
    rw [List.map_cons, joined, List.append_assoc, hItem done expected _ hExpected]
    cases items with
    | nil =>
      simp only [complete, Option.bind_some, List.map_nil, List.isEmpty_nil, if_true,
        List.nil_append, takeAll, take, List.reverse_cons]
    | cons next more =>
      have hNext := ih (item :: done) (List.cons_ne_nil _ _) hRest (Or.inl rfl)
      simpa [complete, takeAll, take] using hNext

theorem takeAll_members {members : List (String × Json)} (done : List (String × Json))
    (hMembers : members ≠ [])
    (hReads : ∀ m ∈ members, ∀ done, Reads m.2 (.member done m.1 :: stack)) {expected : Expected}
    (hExpected : expected = .name ∨ expected = .firstName) :
    takeAll ⟨.object done :: stack, expected⟩
        (joined (members.map nameTokens) ++ .closeObject :: rest) =
      (complete (object (done.reverse ++ members)) stack).bind fun r => takeAll r rest := by
  induction members generalizing done expected with
  | nil => exact absurd rfl hMembers
  | cons m members ih =>
    obtain ⟨hMember, hRest⟩ := List.forall_mem_cons.mp hReads
    have hName (more : List Token) : takeAll ⟨.object done :: stack, expected⟩
        (.text m.1 :: .colon :: more) = takeAll ⟨.member done m.1 :: stack, .value⟩ more := by
      rcases hExpected with rfl | rfl <;> rfl
    rw [List.map_cons, joined, List.append_assoc, nameTokens, List.cons_append, List.cons_append,
      hName, hMember done .value _ (Or.inl rfl)]
    cases members with
    | nil =>
      simp only [complete, Option.bind_some, List.map_nil, List.isEmpty_nil, if_true,
        List.nil_append, takeAll, take, List.reverse_cons]
    | cons next more =>
      have hNext := ih (m :: done) (List.cons_ne_nil _ _) hRest (Or.inl rfl)
      simpa [complete, takeAll, take] using hNext

theorem reads_of_readable {depth : Nat} {j : Json} (h : Readable depth j)
    (hRoom : stack.length + depth ≤ depthLimit) : Reads j stack := by
  induction h generalizing stack with
  | null => exact reads_leaf tokens.eq_1 (by simp) rfl
  | bool value => exact reads_leaf (tokens.eq_2 value) (by simp) rfl
  | int hLeast hMost => exact reads_leaf (tokens.eq_3 _) (by simp) rfl
  | float hFinite hRead => exact reads_leaf (tokens.eq_4 _) (by simp) rfl
  | text value => exact reads_leaf (tokens.eq_5 value) (by simp) rfl
  | @array depth items _ ih =>
    intro expected rest hExpected
    have hOpen : openFrame (.array []) .firstItem stack =
        some ⟨.array [] :: stack, .firstItem⟩ := if_pos (by omega)
    have hTake : take ⟨stack, expected⟩ .openArray = valueToken .openArray stack :=
      take_value hExpected (by simp)
    rw [tokens, itemTokens_eq, List.cons_append, takeAll, hTake, valueToken, hOpen,
      Option.bind_some, List.append_assoc, List.singleton_append]
    cases items with
    | nil => rfl
    | cons item items =>
      exact takeAll_items [] (List.cons_ne_nil _ _) (fun item hItem done =>
        ih item hItem (by rw [List.length_cons]; omega)) (Or.inr rfl)
  | @object depth members _ ih =>
    intro expected rest hExpected
    have hOpen : openFrame (.object []) .firstName stack =
        some ⟨.object [] :: stack, .firstName⟩ := if_pos (by omega)
    have hTake : take ⟨stack, expected⟩ .openObject = valueToken .openObject stack :=
      take_value hExpected (by simp)
    rw [tokens, memberTokens_eq, List.cons_append, takeAll, hTake, valueToken, hOpen,
      Option.bind_some, List.append_assoc, List.singleton_append]
    cases members with
    | nil => rfl
    | cons m members =>
      exact takeAll_members [] (List.cons_ne_nil _ _) (fun m hm done =>
        ih m hm (by rw [List.length_cons]; omega)) (Or.inr rfl)

/-- An indented text, with an end of line, is read as the value it was written for. -/
theorem parse?_indented {j : Json} (h : Readable depthLimit j) :
    parse? (j.indented ++ "\n") = some j := by
  have hScanned : scanFrom .between [] ((j.indented ++ "\n").toList) = some (tokens j).reverse := by
    have hLine : scanFrom .between ((tokens j).reverse ++ []) ['\n'] =
        some ((tokens j).reverse ++ []) := rfl
    rw [String.toList_append, indented, String.toList_ofList]
    exact (scans_indented h 0 [] '\n' [] stops_line).trans (by rw [hLine, List.append_nil])
  have hRoom : ([] : List Frame).length + depthLimit ≤ depthLimit := by simp
  have hRead := reads_of_readable h hRoom .value [] (Or.inl rfl)
  rw [List.append_nil] at hRead
  rw [parse?, hScanned, Option.bind_some, List.reverse_reverse, hRead]
  rfl

end NativeBinding.Json
