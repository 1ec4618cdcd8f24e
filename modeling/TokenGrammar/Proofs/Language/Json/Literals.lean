import TokenGrammar.Proofs.Language.Json.Reading
import TokenGrammar.Proofs.Rule.Compile

namespace TokenGrammar.Language.Json

open TokenGrammar.Parser

/-! The string literals of a tree that has a value can all be decoded. -/

/-- Whether the string literals among some tokens can be decoded. -/
def Decodable (tokens : List Token) : Prop :=
  ∀ text, Token.ordinary "string" text ∈ tokens → (TokenGrammar.Json.unquote? text).isSome = true

theorem mem_separated {comma token : Token} {parts : List (List Token)}
    (member : token ∈ separated comma parts) : token = comma ∨ ∃ part ∈ parts, token ∈ part := by
  cases parts with
  | nil => simp [separated] at member
  | cons part rest =>
      simp only [separated, List.mem_append, List.mem_flatMap, List.mem_cons] at member
      rcases member with inside | ⟨other, later, rfl | inside⟩
      · exact .inr ⟨part, by simp, inside⟩
      · exact .inl rfl
      · exact .inr ⟨other, by simp [later], inside⟩

theorem decodable_single {type text : String}
    (decoded : type = "string" → (TokenGrammar.Json.unquote? text).isSome = true) :
    Decodable [.ordinary type text] := by
  intro other member
  cases List.mem_singleton.mp member
  exact decoded rfl

theorem decodable_enclosed {opening closing : String} {parts : List (List Token)}
    (each : ∀ part ∈ parts, Decodable part) :
    Decodable (op opening :: (separated (op ",") parts ++ [op closing])) := by
  intro text member
  have apart (mark : String) : Token.ordinary "string" text ≠ op mark := by simp [op]
  simp only [List.mem_cons, List.mem_append, List.not_mem_nil, or_false, apart, false_or] at member
  rcases mem_separated member with same | ⟨part, inside, member⟩
  · exact absurd same (apart _)
  · exact each part inside text member

theorem compileKind_array (rule : String) (items : List Tree) :
    (container rule items).compileKind .array = (do return .array (← Tree.compileAll items)) := by
  simp [container, Tree.compileKind, Tree.compileItems]

theorem compileKind_object (rule : String) (items : List Tree) :
    (container rule items).compileKind .object =
      (do return .ofMembers (← Tree.compileEach items)) := by
  simp [container, Tree.compileKind, Tree.compileMembers]

theorem compile_of_compileAll {items : List Tree} (compiled : Tree.compileAll items = .ok values) :
    ∀ item ∈ items, ∃ value, item.compile = .ok value := by
  induction items generalizing values with
  | nil => simp
  | cons item items ih =>
      rw [Tree.compileAll] at compiled
      obtain ⟨value, own, compiled⟩ := Except.ok_of_bind_ok compiled
      obtain ⟨others, further, _⟩ := Except.ok_of_bind_ok compiled
      exact List.forall_mem_cons.mpr ⟨⟨value, own⟩, ih further⟩

theorem compileMember_of_compileEach {items : List Tree}
    (compiled : Tree.compileEach items = .ok members) :
    ∀ item ∈ items, ∃ entry, item.compileMember = .ok entry := by
  induction items generalizing members with
  | nil => simp
  | cons item items ih =>
      rw [Tree.compileEach] at compiled
      obtain ⟨entry, own, compiled⟩ := Except.ok_of_bind_ok compiled
      obtain ⟨others, further, _⟩ := Except.ok_of_bind_ok compiled
      exact List.forall_mem_cons.mpr ⟨⟨entry, own⟩, ih further⟩

theorem unquote_of_stringValue {text : String}
    (named : (Token.ordinary "string" text).stringValue = .ok value) :
    (TokenGrammar.Json.unquote? text).isSome = true := by
  unfold Token.stringValue at named
  split at named
  · rename_i found
    exact Option.isSome_of_eq_some found
  · cases named

theorem of_compileMember {key : Token} {value : Tree}
    (compiled : (member key value).compileMember = .ok entry) :
    ∃ name held, key.stringValue = .ok name ∧ value.compile = .ok held := by
  obtain ⟨name, named, compiled⟩ := Except.ok_of_bind_ok compiled
  obtain ⟨held, compiled, _⟩ := Except.ok_of_bind_ok compiled
  exact ⟨name, held, named, compiled⟩

theorem WellFormed.decodable (wellFormed : WellFormed tree) (compiled : tree.compile = .ok value) :
    Decodable (flatten tree) := by
  induction wellFormed generalizing value with
  | number text =>
      rw [flatten_alternative _ _ (by decide), flatten_scalar]
      exact decodable_single fun same => absurd same (by decide)
  | string text =>
      obtain ⟨decoded, named, _⟩ := Except.ok_of_bind_ok compiled
      rw [flatten_alternative _ _ (by decide), flatten_scalar]
      exact decodable_single fun _ => unquote_of_stringValue named
  | null =>
      rw [flatten_alternative _ _ (by decide), flatten_scalar]
      exact decodable_single fun same => absurd same (by decide)
  | bool text =>
      rw [flatten_alternative _ _ (by decide), flatten_scalar]
      exact decodable_single fun same => absurd same (by decide)
  | @array items values ih =>
      rw [TokenGrammar.Json.compile_alternative _ _ (by decide)] at compiled
      obtain ⟨held, compiled, _⟩ :=
        Except.ok_of_bind_ok ((compileKind_array _ items).symm.trans compiled)
      rw [flatten_alternative _ _ (by decide), flatten_array]
      refine decodable_enclosed fun part inside => ?_
      obtain ⟨item, known, rfl⟩ := List.mem_map.mp inside
      obtain ⟨own, compiled⟩ := compile_of_compileAll compiled item known
      exact ih item known compiled
  | @dict members values ih =>
      rw [TokenGrammar.Json.compile_alternative _ _ (by decide)] at compiled
      obtain ⟨held, compiled, _⟩ :=
        Except.ok_of_bind_ok ((compileKind_object _ _).symm.trans compiled)
      rw [flatten_alternative _ _ (by decide), flatten_dict]
      refine decodable_enclosed fun part inside => ?_
      obtain ⟨item, known, rfl⟩ := List.mem_map.mp inside
      obtain ⟨_, compiled⟩ := compileMember_of_compileEach compiled item known
      obtain ⟨entry, listed, rfl⟩ := List.mem_map.mp known
      obtain ⟨_, _, named, compiled⟩ := of_compileMember compiled
      rw [flatten_member]
      intro text member
      rcases List.mem_cons.mp member with same | member
      · cases same
        exact unquote_of_stringValue named
      · rcases List.mem_cons.mp member with same | member
        · exact absurd same (by simp [op])
        · exact ih entry listed compiled text member

end TokenGrammar.Language.Json
