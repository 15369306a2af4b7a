import PathQuery.Proofs.Tokenizer
/-!
# Reading queries

The second pass of reading a query goes over its tokens from the left. Each part of it takes what it
knows off the front and returns the rest; what stands in parentheses or braces is read up to the
mark that closes it. The reader accepts exactly what the grammar derives
(`readRequest_eq_some_iff`), so a text says one thing at most (`read_eq_some_iff`).
-/

namespace PathQuery.Grammar

open Selection (Binding Head Node)

def readType : List Token → Option (TypeSyntax × List Token)
  | .name text :: rest => some (.named text, rest)
  | .bracketLeft :: rest =>
    match readType rest with
    | some (element, .bracketRight :: rest) => some (.list element, rest)
    | _ => none
  | _ => none

/-- Variables with their types, up to the parenthesis behind them. Each takes at least one token, so
as many steps as there are tokens are enough. -/
def readDefinitions : Nat → List Token → Option (List Definition × List Token)
  | _, .parenRight :: rest => some ([], rest)
  | fuel + 1, .dollar :: .name name :: .colon :: rest =>
    match readType rest with
    | some (type, rest) =>
      (readDefinitions fuel rest).map fun read => (⟨name, type⟩ :: read.1, read.2)
    | none => none
  | _, _ => none

def readHeader : List Token → Option (List Definition × List Token)
  | .parenLeft :: rest =>
    match readDefinitions rest.length rest with
    | some (first :: others, rest) => some (first :: others, rest)
    | _ => none
  | tokens => some ([], tokens)

def readBindings : List Token → Option (List Binding × List Token)
  | .parenRight :: rest => some ([], rest)
  | .name argument :: .colon :: .dollar :: .name name :: rest =>
    (readBindings rest).map fun read => (⟨argument, name⟩ :: read.1, read.2)
  | _ => none

def readArguments : List Token → Option (List Binding × List Token)
  | .parenLeft :: rest =>
    match readBindings rest with
    | some (first :: others, rest) => some (first :: others, rest)
    | _ => none
  | tokens => some ([], tokens)

def readHead : List Token → Option (Head × List Token)
  | .name label :: .colon :: .name name :: rest =>
    (readArguments rest).map fun read => (⟨name, some label, read.1⟩, read.2)
  | .name name :: rest =>
    (readArguments rest).map fun read => (⟨name, none, read.1⟩, read.2)
  | _ => none

/-- Fields, up to the brace behind them. Each takes at least one token, and so does each brace. -/
def readFields : Nat → List Token → Option (List Node × List Token)
  | _, .braceRight :: rest => some ([], rest)
  | fuel + 1, tokens =>
    match readHead tokens with
    | some (head, .braceLeft :: rest) =>
      match readFields fuel rest with
      | some (first :: children, rest) =>
        (readFields fuel rest).map fun read =>
          (.branch head (first :: children) :: read.1, read.2)
      | _ => none
    | some (head, rest) => (readFields fuel rest).map fun read => (.leaf head :: read.1, read.2)
    | none => none
  | 0, _ => none

def readRequest : List Token → Option Request
  | .name keyword :: rest =>
    if keyword = "query" then
      match readHeader rest with
      | some (definitions, .braceLeft :: rest) =>
        match readFields rest.length rest with
        | some (first :: others, []) => some ⟨definitions, first :: others⟩
        | _ => none
      | _ => none
    else none
  | _ => none

/-- What a text says, if it is a query. -/
def read (text : String) : Option Request := (tokenize text.toList).bind readRequest

/-! ### What is derived is read -/

theorem readType_of_types {tokens : List Token} {type : TypeSyntax} (h : Types tokens type)
    (rest : List Token) : readType (tokens ++ rest) = some (type, rest) := by
  induction h generalizing rest with
  | named => rfl
  | list below ih => simp [readType, ih]

theorem readDefinitions_of_definitions {tokens : List Token} {definitions : List Definition}
    (h : Definitions tokens definitions) (rest : List Token) {fuel : Nat}
    (hfuel : tokens.length ≤ fuel) :
    readDefinitions fuel (tokens ++ .parenRight :: rest) = some (definitions, rest) := by
  induction h generalizing fuel with
  | nil => cases fuel <;> rfl
  | @cons name tokens type others definitions types below ih =>
    simp only [List.length_cons, List.length_append] at hfuel
    obtain ⟨fuel, rfl⟩ : ∃ n, fuel = n + 1 := ⟨fuel - 1, by omega⟩
    have hothers : readDefinitions fuel (others ++ .parenRight :: rest) =
        some (definitions, rest) := ih (by omega)
    simp [readDefinitions, readType_of_types types, hothers]

theorem readBindings_of_bindings {tokens : List Token} {bindings : List Binding}
    (h : Bindings tokens bindings) (rest : List Token) :
    readBindings (tokens ++ .parenRight :: rest) = some (bindings, rest) := by
  induction h with
  | nil => rfl
  | cons below ih => simp [readBindings, ih]

theorem readHeader_of_header {tokens : List Token} {definitions : List Definition}
    (h : Header tokens definitions) (rest : List Token) :
    readHeader (tokens ++ .braceLeft :: rest) = some (definitions, .braceLeft :: rest) := by
  cases h with
  | none => rfl
  | @some tokens _ inner definitions_ne =>
    obtain ⟨first, others, rfl⟩ := List.exists_cons_of_ne_nil definitions_ne
    simp [readHeader, readDefinitions_of_definitions inner]

/-- Whether a field does not go on with an argument list or with the name behind its label. -/
def endsHead : List Token → Bool
  | .colon :: _ | .parenLeft :: _ => false
  | _ => true

theorem readArguments_of_arguments {tokens : List Token} {bindings : List Binding}
    (h : Arguments tokens bindings) {rest : List Token} (hends : endsHead rest = true) :
    readArguments (tokens ++ rest) = some (bindings, rest) := by
  cases h with
  | none =>
    rw [List.nil_append]
    unfold readArguments
    split
    · contradiction
    · rfl
  | @some tokens _ inner bindings_ne =>
    obtain ⟨first, others, rfl⟩ := List.exists_cons_of_ne_nil bindings_ne
    simp [readArguments, readBindings_of_bindings inner]

theorem readHead_name (name : String) {tokens : List Token} (h : tokens.head? ≠ some .colon) :
    readHead (.name name :: tokens) =
      (readArguments tokens).map fun read => (⟨name, none, read.1⟩, read.2) := by
  cases tokens with
  | nil => rfl
  | cons token rest =>
    cases token with
    | colon => simp at h
    | _ => rfl

theorem head?_ne_colon_of_arguments {tokens : List Token} {bindings : List Binding}
    (h : Arguments tokens bindings) {rest : List Token} (hends : endsHead rest = true) :
    (tokens ++ rest).head? ≠ some .colon := by
  cases h with
  | none =>
    cases rest with
    | nil => simp
    | cons token rest =>
      intro hcolon
      obtain rfl : token = .colon := Option.some.inj hcolon
      contradiction
  | some inner => simp

theorem readHead_of_heads {tokens : List Token} {head : Head} (h : Heads tokens head)
    {rest : List Token} (hends : endsHead rest = true) :
    readHead (tokens ++ rest) = some (head, rest) := by
  cases h with
  | @plain name tokens bindings arguments =>
    rw [List.cons_append, readHead_name name (head?_ne_colon_of_arguments arguments hends),
      readArguments_of_arguments arguments hends]
    rfl
  | labelled arguments => simp [readHead, readArguments_of_arguments arguments hends]

theorem endsHead_of_fields {tokens : List Token} {nodes : List Node} (h : Fields tokens nodes)
    (rest : List Token) : endsHead (tokens ++ .braceRight :: rest) = true := by
  cases h with
  | nil => rfl
  | leaf heads => cases heads <;> rfl
  | branch heads => cases heads <;> rfl

theorem head?_ne_braceLeft_of_fields {tokens : List Token} {nodes : List Node}
    (h : Fields tokens nodes) (rest : List Token) :
    (tokens ++ .braceRight :: rest).head? ≠ some .braceLeft := by
  cases h with
  | nil => simp
  | leaf heads => cases heads <;> simp
  | branch heads => cases heads <;> simp

theorem readFields_leaf {tokens rest : List Token} {head : Head} (h : Heads tokens head)
    (hends : endsHead rest = true) (hbrace : rest.head? ≠ some .braceLeft) (fuel : Nat) :
    readFields (fuel + 1) (tokens ++ rest) =
      (readFields fuel rest).map fun read => (.leaf head :: read.1, read.2) := by
  have hread := readHead_of_heads h hends
  -- Either way the head begins with a name, so the fields do not end here.
  cases h <;>
  · rw [List.cons_append] at hread ⊢
    simp only [readFields, hread]
    split
    · rename_i heq
      obtain ⟨-, rfl⟩ := Prod.mk.inj (Option.some.inj heq)
      simp at hbrace
    · rename_i heq
      obtain ⟨rfl, rfl⟩ := Prod.mk.inj (Option.some.inj heq)
      rfl
    · contradiction

theorem readFields_branch {tokens inner rest : List Token} {head : Head} {children : List Node}
    (h : Heads tokens head) {fuel : Nat} (hbelow : readFields fuel inner = some (children, rest))
    (hchildren : children ≠ []) :
    readFields (fuel + 1) (tokens ++ .braceLeft :: inner) =
      (readFields fuel rest).map fun read => (.branch head children :: read.1, read.2) := by
  have hread : readHead (tokens ++ .braceLeft :: inner) = some (head, .braceLeft :: inner) :=
    readHead_of_heads h rfl
  obtain ⟨first, others, rfl⟩ := List.exists_cons_of_ne_nil hchildren
  cases h <;>
  · rw [List.cons_append] at hread ⊢
    simp only [readFields, hread, hbelow]

theorem length_pos_of_heads {tokens : List Token} {head : Head} (h : Heads tokens head) :
    0 < tokens.length := by
  cases h <;> simp

theorem readFields_of_fields {tokens : List Token} {nodes : List Node} (h : Fields tokens nodes)
    (rest : List Token) {fuel : Nat} (hfuel : tokens.length ≤ fuel) :
    readFields fuel (tokens ++ .braceRight :: rest) = some (nodes, rest) := by
  induction h generalizing rest fuel with
  | nil => cases fuel <;> rfl
  | @leaf tokens head others nodes heads below ih =>
    have hpos := length_pos_of_heads heads
    rw [List.length_append] at hfuel
    obtain ⟨fuel, rfl⟩ : ∃ n, fuel = n + 1 := ⟨fuel - 1, by omega⟩
    rw [List.append_assoc, readFields_leaf heads (endsHead_of_fields below rest)
      (head?_ne_braceLeft_of_fields below rest), ih rest (by omega)]
    rfl
  | @branch tokens head inner children others nodes heads below children_ne after ihBelow ih =>
    have hpos := length_pos_of_heads heads
    simp only [List.length_append, List.length_cons] at hfuel
    obtain ⟨fuel, rfl⟩ : ∃ n, fuel = n + 1 := ⟨fuel - 1, by omega⟩
    have hbelow : readFields fuel (inner ++ .braceRight :: (others ++ .braceRight :: rest)) =
        some (children, others ++ .braceRight :: rest) := ihBelow _ (by omega)
    rw [List.append_assoc, List.cons_append, List.append_assoc, List.cons_append,
      readFields_branch heads hbelow children_ne, ih rest (by omega)]
    rfl

theorem readRequest_of_requests {tokens : List Token} {request : Request}
    (h : Requests tokens request) : readRequest tokens = some request := by
  obtain ⟨header, below, fields_ne⟩ := h
  rename_i tokens definitions inner fields
  obtain ⟨first, others, rfl⟩ := List.exists_cons_of_ne_nil fields_ne
  have hfields : readFields (inner ++ [Token.braceRight]).length (inner ++ [.braceRight]) =
      some (first :: others, []) :=
    readFields_of_fields below [] (by simp)
  simp only [readRequest, if_true, readHeader_of_header header, hfields]

/-! ### What is read is derived -/

theorem types_of_readType {tokens : List Token} {type : TypeSyntax} {rest : List Token}
    (h : readType tokens = some (type, rest)) :
    ∃ front, tokens = front ++ rest ∧ Types front type := by
  induction tokens using readType.induct generalizing type rest with
  | case1 text after =>
    simp only [readType, Option.some.injEq, Prod.mk.injEq] at h
    obtain ⟨rfl, rfl⟩ := h
    exact ⟨[.name text], rfl, .named⟩
  | case2 after element behind hread ih =>
    simp only [readType, hread, Option.some.injEq, Prod.mk.injEq] at h
    obtain ⟨rfl, rfl⟩ := h
    obtain ⟨front, rfl, hfront⟩ := ih hread
    exact ⟨.bracketLeft :: (front ++ [.bracketRight]), by simp, .list hfront⟩
  | case3 after hnot ih =>
    rw [readType] at h
    split at h
    · rename_i hread
      exact absurd hread (hnot _ _)
    · contradiction
  | case4 tokens hname hbracket => simp_all [readType]

theorem bindings_of_readBindings {tokens : List Token} {bindings : List Binding}
    {rest : List Token} (h : readBindings tokens = some (bindings, rest)) :
    ∃ front, tokens = front ++ .parenRight :: rest ∧ Bindings front bindings := by
  induction tokens using readBindings.induct generalizing bindings with
  | case1 after =>
    simp only [readBindings, Option.some.injEq, Prod.mk.injEq] at h
    obtain ⟨rfl, rfl⟩ := h
    exact ⟨[], rfl, .nil⟩
  | case2 argument name after ih =>
    simp only [readBindings] at h
    obtain ⟨⟨others, behind⟩, hothers, heq⟩ := Option.map_eq_some_iff.mp h
    obtain ⟨rfl, rfl⟩ := Prod.mk.inj heq
    obtain ⟨front, rfl, hfront⟩ := ih hothers
    exact ⟨_, rfl, .cons hfront⟩
  | case3 tokens hparen hname => simp_all [readBindings]

theorem definitions_of_readDefinitions {fuel : Nat} {tokens : List Token}
    {definitions : List Definition} {rest : List Token}
    (h : readDefinitions fuel tokens = some (definitions, rest)) :
    ∃ front, tokens = front ++ .parenRight :: rest ∧ Definitions front definitions := by
  induction fuel, tokens using readDefinitions.induct generalizing definitions with
  | case1 fuel after =>
    simp only [readDefinitions, Option.some.injEq, Prod.mk.injEq] at h
    obtain ⟨rfl, rfl⟩ := h
    exact ⟨[], rfl, .nil⟩
  | case2 fuel name after type behind hread ih =>
    simp only [readDefinitions, hread] at h
    obtain ⟨⟨others, last⟩, hothers, heq⟩ := Option.map_eq_some_iff.mp h
    obtain ⟨rfl, rfl⟩ := Prod.mk.inj heq
    obtain ⟨front, rfl, hfront⟩ := ih hothers
    obtain ⟨types, rfl, htypes⟩ := types_of_readType hread
    exact ⟨_, by simp, .cons htypes hfront⟩
  | case3 fuel name after hread => simp [readDefinitions, hread] at h
  | case4 fuel tokens hparen hdollar => simp_all [readDefinitions]

theorem header_of_readHeader {tokens : List Token} {definitions : List Definition}
    {rest : List Token} (h : readHeader tokens = some (definitions, rest)) :
    ∃ front, tokens = front ++ rest ∧ Header front definitions := by
  unfold readHeader at h
  split at h
  · split at h
    · rename_i hread
      obtain ⟨rfl, rfl⟩ := Prod.mk.inj (Option.some.inj h)
      obtain ⟨front, rfl, hfront⟩ := definitions_of_readDefinitions hread
      exact ⟨.parenLeft :: (front ++ [.parenRight]), by simp, .some hfront (by simp)⟩
    · contradiction
  · obtain ⟨rfl, rfl⟩ := Prod.mk.inj (Option.some.inj h)
    exact ⟨[], rfl, .none⟩

theorem arguments_of_readArguments {tokens : List Token} {bindings : List Binding}
    {rest : List Token} (h : readArguments tokens = some (bindings, rest)) :
    ∃ front, tokens = front ++ rest ∧ Arguments front bindings := by
  unfold readArguments at h
  split at h
  · split at h
    · rename_i hread
      obtain ⟨rfl, rfl⟩ := Prod.mk.inj (Option.some.inj h)
      obtain ⟨front, rfl, hfront⟩ := bindings_of_readBindings hread
      exact ⟨.parenLeft :: (front ++ [.parenRight]), by simp, .some hfront (by simp)⟩
    · contradiction
  · obtain ⟨rfl, rfl⟩ := Prod.mk.inj (Option.some.inj h)
    exact ⟨[], rfl, .none⟩

theorem heads_of_readHead {tokens : List Token} {head : Head} {rest : List Token}
    (h : readHead tokens = some (head, rest)) :
    ∃ front, tokens = front ++ rest ∧ Heads front head := by
  unfold readHead at h
  split at h
  · obtain ⟨⟨bindings, behind⟩, hread, heq⟩ := Option.map_eq_some_iff.mp h
    obtain ⟨rfl, rfl⟩ := Prod.mk.inj heq
    obtain ⟨front, rfl, hfront⟩ := arguments_of_readArguments hread
    exact ⟨_, rfl, .labelled hfront⟩
  · obtain ⟨⟨bindings, behind⟩, hread, heq⟩ := Option.map_eq_some_iff.mp h
    obtain ⟨rfl, rfl⟩ := Prod.mk.inj heq
    obtain ⟨front, rfl, hfront⟩ := arguments_of_readArguments hread
    exact ⟨_, rfl, .plain hfront⟩
  · contradiction

theorem fields_of_readFields {fuel : Nat} {tokens : List Token} {nodes : List Node}
    {rest : List Token} (h : readFields fuel tokens = some (nodes, rest)) :
    ∃ front, tokens = front ++ .braceRight :: rest ∧ Fields front nodes := by
  induction fuel generalizing tokens nodes rest with
  | zero =>
    unfold readFields at h
    split at h
    · obtain ⟨rfl, rfl⟩ := Prod.mk.inj (Option.some.inj h)
      exact ⟨[], rfl, .nil⟩
    · contradiction
    · contradiction
  | succ fuel ih =>
    unfold readFields at h
    split at h
    · obtain ⟨rfl, rfl⟩ := Prod.mk.inj (Option.some.inj h)
      exact ⟨[], rfl, .nil⟩
    · rename_i hfuel _
      obtain rfl := Nat.succ.inj hfuel
      split at h
      · rename_i head after hhead
        obtain ⟨front, rfl, hheads⟩ := heads_of_readHead hhead
        split at h
        · rename_i first children behind hbelow
          obtain ⟨⟨others, last⟩, hothers, heq⟩ := Option.map_eq_some_iff.mp h
          obtain ⟨rfl, rfl⟩ := Prod.mk.inj heq
          obtain ⟨inner, rfl, hinner⟩ := ih hbelow
          obtain ⟨outer, rfl, houter⟩ := ih hothers
          exact ⟨_, by simp, .branch hheads hinner (by simp) houter⟩
        · contradiction
      · rename_i head after hnot hhead
        obtain ⟨front, rfl, hheads⟩ := heads_of_readHead hhead
        obtain ⟨⟨others, last⟩, hothers, heq⟩ := Option.map_eq_some_iff.mp h
        obtain ⟨rfl, rfl⟩ := Prod.mk.inj heq
        obtain ⟨outer, rfl, houter⟩ := ih hothers
        exact ⟨_, (List.append_assoc _ _ _).symm, .leaf hheads houter⟩
      · contradiction
    · contradiction

theorem requests_of_readRequest {tokens : List Token} {request : Request}
    (h : readRequest tokens = some request) : Requests tokens request := by
  unfold readRequest at h
  split at h
  · split at h
    · rename_i hkeyword
      subst hkeyword
      split at h
      · rename_i hheader
        split at h
        · rename_i hfields
          obtain rfl := Option.some.inj h
          obtain ⟨front, rfl, hfront⟩ := header_of_readHeader hheader
          obtain ⟨inner, rfl, hinner⟩ := fields_of_readFields hfields
          exact .query hfront hinner (by simp)
        · contradiction
      · contradiction
    · contradiction
  · contradiction

/-- The second pass finds the request that tokens are derived for. -/
theorem readRequest_eq_some_iff {tokens : List Token} {request : Request} :
    readRequest tokens = some request ↔ Requests tokens request :=
  ⟨requests_of_readRequest, readRequest_of_requests⟩

/-- The reader reads what the grammar derives, and nothing else. -/
theorem read_eq_some_iff {text : String} {request : Request} :
    read text = some request ↔ Derives text request := by
  simp only [read, Option.bind_eq_some_iff, tokenize_eq_some_iff, readRequest_eq_some_iff, Derives]

example : read "query ($id: ID) \x7b result: route(id: $id) \x7b trips \x7d \x7d" =
    some ⟨[⟨"id", .named "ID"⟩],
      [.branch ⟨"route", some "result", [⟨"id", "id"⟩]⟩ [.leaf ⟨"trips", none, []⟩]]⟩ := rfl

example : read "query \x7b route \x7b \x7d \x7d" = none := rfl

end PathQuery.Grammar
