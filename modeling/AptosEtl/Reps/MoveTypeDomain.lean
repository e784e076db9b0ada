import AptosEtl.Reps.MoveType

/-!
# The Move types that encode

A type is refused at the first node that does not pass, so a type that encodes passes at all of
them. `Specified` is that: the kind of each node is known and its content is the one of its kind.
What a kind without content has to be is the parameter of `Specified`. The errors of the code name
`Unspecified` and `Unparsable` among the refused ones, and its arm for a type without content
writes the name of either.
-/

namespace AptosEtl.Reps

open Rust Input

/-! ## What each arm returns -/

variable {crates : Crates}

/-- A type without content is written by its name. -/
theorem encodePlain_eq_ok {movetype : MoveTypes} {text : String} :
    encodePlain movetype = .ok text ↔
      movetype = .Unspecified ∧ text = "UNSPECIFIED" ∨
        movetype = .Unparsable ∧ text = "UNPARSABLE" ∨ movetype = .Plain text := by
  cases movetype with
  | Unspecified =>
    have hname : encodePlain .Unspecified = .ok "UNSPECIFIED" := rfl
    simp [hname, eq_comm]
  | Unparsable =>
    have hname : encodePlain .Unparsable = .ok "UNPARSABLE" := rfl
    simp [hname, eq_comm]
  | Plain name =>
    have hname : stripPrefix? movetypePrefix (moveTypeName (.Plain name)) = some name := by
      have hlist : (moveTypeName (.Plain name)).toList = movetypePrefix ++ name.toList :=
        String.toList_append
      have hprefix : movetypePrefix.isPrefixOf (movetypePrefix ++ name.toList) = true := by
        rw [List.isPrefixOf_iff_prefix]
        exact List.prefix_append _ _
      rw [stripPrefix?, hlist, if_pos hprefix, List.drop_left, String.ofList_toList]
    simp [encodePlain, hname]
  | Vector => simp [encodePlain]
  | Struct => simp [encodePlain]
  | GenericTypeParam => simp [encodePlain]
  | Reference => simp [encodePlain]

/-- What a reference is written as: a mark and its target. -/
theorem encodeContent_reference_eq_ok {movetype : MoveTypes} {mutable : Bool}
    {target : Option Input.MoveType} {text : String} :
    encodeContent crates movetype (.Reference mutable target) = .ok text ↔
      movetype = .Reference ∧ ∃ inner typeStr, target = some inner ∧
        encodeMoveType crates inner = .ok typeStr ∧
          text = (if mutable then "&mut " else "&") ++ typeStr := by
  unfold encodeContent
  cases movetype
  case Reference =>
    cases target with
    | none => simp
    | some inner => simp [@eq_comm _ _ text]
  all_goals simp

/-- What a vector is written as: its element type in angle brackets. -/
theorem encodeContent_vector_eq_ok {movetype : MoveTypes} {inner : Input.MoveType}
    {text : String} :
    encodeContent crates movetype (.Vector inner) = .ok text ↔
      movetype = .Vector ∧ ∃ typeStr, encodeMoveType crates inner = .ok typeStr ∧
        text = "Vector<" ++ typeStr ++ ">" := by
  unfold encodeContent
  cases movetype
  case Vector => simp [@eq_comm _ _ text]
  all_goals simp

/-- A struct is written as its tag. -/
theorem encodeContent_struct_eq_ok {movetype : MoveTypes} {tag : MoveStructTag} {text : String} :
    encodeContent crates movetype (.Struct tag) = .ok text ↔
      movetype = .Struct ∧ encodeStructTag crates tag = .ok text := by
  unfold encodeContent
  cases movetype
  case Struct => simp
  all_goals simp

/-- A generic parameter is written as its index. -/
theorem encodeContent_genericTypeParamIndex_eq_ok {movetype : MoveTypes} {index : UInt32}
    {text : String} :
    encodeContent crates movetype (.GenericTypeParamIndex index) = .ok text ↔
      movetype = .GenericTypeParam ∧ text = "T" ++ toString index := by
  unfold encodeContent
  cases movetype
  case GenericTypeParam => simp [eq_comm]
  all_goals simp

/-- Of the unparsable texts only `function` is written. -/
theorem encodeContent_unparsable_eq_ok {movetype : MoveTypes} {badstring text : String} :
    encodeContent crates movetype (.Unparsable badstring) = .ok text ↔
      movetype = .Unparsable ∧ badstring = "function" ∧ text = "function" := by
  unfold encodeContent
  cases movetype
  case Unparsable =>
    by_cases hfunction : badstring = "function"
    · simp [hfunction, eq_comm]
    · simp [hfunction]
  all_goals simp

/-- The loop over a list of types stops at the first that is refused. -/
theorem encodeMoveTypes_eq_tryMap (params : List Input.MoveType) :
    encodeMoveTypes crates params = Outcome.tryMap (encodeMoveType crates) params := by
  induction params with
  | nil => rw [encodeMoveTypes, Outcome.tryMap]
  | cons param params ih => rw [encodeMoveTypes, Outcome.tryMap, ih]

/-- Only a type of a known kind encodes. -/
theorem exists_known_of_encodeMoveType {value : Input.MoveType} {text : String}
    (h : encodeMoveType crates value = .ok text) :
    ∃ movetype, decodeMoveTypes value.type = .ok movetype := by
  obtain ⟨type, content⟩ := value
  cases content with
  | none =>
    rw [encodeMoveType] at h
    obtain ⟨movetype, htype, -⟩ := Outcome.bind_eq_ok.1 h
    exact ⟨movetype, htype⟩
  | some content =>
    rw [encodeMoveType] at h
    obtain ⟨movetype, htype, -⟩ := Outcome.bind_eq_ok.1 h
    exact ⟨movetype, htype⟩

/-- A struct tag is written as its address, its names and its type arguments. -/
theorem encodeStructTag_eq_ok {address module name : String} {params : List Input.MoveType}
    {text : String} :
    encodeStructTag crates (.mk address module name params) = .ok text ↔
      ∃ encoded strings, Address.tryFixString address = .ok encoded ∧
        Outcome.tryMap (encodeMoveType crates) params = .ok strings ∧
          text = encoded ++ "::" ++ module ++ "::" ++ name ++ encodeTypeArguments strings := by
  have hdecoded : ∀ strings, Outcome.tryMap (encodeMoveType crates) params = .ok strings →
      ∃ kinds, Outcome.tryMap (fun param => decodeMoveTypes param.type) params = .ok kinds := by
    intro strings hstrings
    rw [Outcome.exists_tryMap_iff]
    intro param hparam
    obtain ⟨string, hstring⟩ := Outcome.exists_tryMap_iff.1 ⟨strings, hstrings⟩ param hparam
    exact exists_known_of_encodeMoveType hstring
  unfold encodeStructTag
  rw [encodeMoveTypes_eq_tryMap]
  constructor
  · intro h
    obtain ⟨-, -, h⟩ := Outcome.bind_eq_ok.1 h
    obtain ⟨encoded, hencoded, h⟩ := Outcome.bind_eq_ok.1 h
    obtain ⟨strings, hstrings, h⟩ := Outcome.bind_eq_ok.1 h
    rw [Outcome.mapErr_eq_ok] at hencoded hstrings
    exact ⟨encoded, strings, Outcome.mapErr_eq_ok.1 hencoded, hstrings, (Outcome.ok.inj h).symm⟩
  · rintro ⟨encoded, strings, hencoded, hstrings, rfl⟩
    obtain ⟨kinds, hkinds⟩ := hdecoded strings hstrings
    simp [hkinds, Address.tryEncode, hencoded, hstrings]

/-! ## Specified types -/

/-- Every node of a type has a known kind and the content of its kind, where `leaf` is what a kind
without content may be. -/
inductive Specified (crates : Crates) (leaf : MoveTypes → Prop) : Input.MoveType → Prop where
  | bare {movetype : MoveTypes} (h : leaf movetype) :
    Specified crates leaf (.mk (.known movetype) none)
  | reference {mutable : Bool} {inner : Input.MoveType} (h : Specified crates leaf inner) :
      Specified crates leaf (.mk (.known .Reference) (some (.Reference mutable (some inner))))
  | vector {inner : Input.MoveType} (h : Specified crates leaf inner) :
      Specified crates leaf (.mk (.known .Vector) (some (.Vector inner)))
  | struct {address module name : String} {params : List Input.MoveType}
      (haddress : ∃ encoded, (Address.string address).tryEncode crates = .ok encoded)
      (hparams : ∀ param ∈ params, Specified crates leaf param) :
      Specified crates leaf
        (.mk (.known .Struct) (some (.Struct (.mk address module name params))))
  | genericTypeParam {index : UInt32} :
      Specified crates leaf (.mk (.known .GenericTypeParam) (some (.GenericTypeParamIndex index)))
  | function : Specified crates leaf (.mk (.known .Unparsable) (some (.Unparsable "function")))

/-- The kinds that have no content, such as `BOOL` or `U64`. -/
def IsPlain (movetype : MoveTypes) : Prop := ∃ name, movetype = .Plain name

/-- The kinds of which a node without content tells nothing. -/
def IsPlaceholder (movetype : MoveTypes) : Prop :=
  movetype = .Unspecified ∨ movetype = .Unparsable

/-- The kinds that the arm without content writes. -/
def IsWrittenBare (movetype : MoveTypes) : Prop := IsPlain movetype ∨ IsPlaceholder movetype

/-- The arm without content refuses the four kinds that carry content. -/
theorem exists_encodePlain_iff {movetype : MoveTypes} :
    (∃ text, encodePlain movetype = .ok text) ↔ IsWrittenBare movetype := by
  simp only [encodePlain_eq_ok]
  constructor
  · rintro ⟨text, ⟨hkind, -⟩ | ⟨hkind, -⟩ | hkind⟩
    · exact .inr (.inl hkind)
    · exact .inr (.inr hkind)
    · exact .inl ⟨text, hkind⟩
  · rintro (⟨name, hkind⟩ | hkind | hkind)
    · exact ⟨name, .inr (.inr hkind)⟩
    · exact ⟨_, .inl ⟨hkind, rfl⟩⟩
    · exact ⟨_, .inr (.inl ⟨hkind, rfl⟩)⟩

/-- A type of an unknown kind does not encode. -/
theorem encodeMoveType_unknown {number : ℤ} {content : Option Content} :
    encodeMoveType crates (.mk (.unknown number) content) = .err (.MoveTypeDecodeError number) := by
  cases content <;> rfl

/-- A type of a known kind without content. -/
theorem encodeMoveType_bare {movetype : MoveTypes} :
    encodeMoveType crates (.mk (.known movetype) none) = encodePlain movetype := rfl

/-- A type of a known kind with content. -/
theorem encodeMoveType_content {movetype : MoveTypes} {content : Content} :
    encodeMoveType crates (.mk (.known movetype) (some content)) =
      encodeContent crates movetype content := rfl

/-- A type that encodes is specified at every node. -/
theorem specified_of_encodeMoveType : ∀ {value : Input.MoveType} {text : String},
    encodeMoveType crates value = .ok text → Specified crates IsWrittenBare value
  | .mk (.unknown number) content, text, h => by
    rw [encodeMoveType_unknown] at h
    exact nomatch h
  | .mk (.known movetype) none, text, h => .bare (exists_encodePlain_iff.1 ⟨text, h⟩)
  | .mk (.known movetype) (some (.Reference mutable target)), text, h => by
    obtain ⟨rfl, inner, typeStr, rfl, hinner, -⟩ := encodeContent_reference_eq_ok.1 h
    exact .reference (specified_of_encodeMoveType hinner)
  | .mk (.known movetype) (some (.Vector inner)), text, h => by
    obtain ⟨rfl, typeStr, hinner, -⟩ := encodeContent_vector_eq_ok.1 h
    exact .vector (specified_of_encodeMoveType hinner)
  | .mk (.known movetype) (some (.Struct (.mk address module name params))), text, h => by
    obtain ⟨rfl, htag⟩ := encodeContent_struct_eq_ok.1 h
    obtain ⟨encoded, strings, hencoded, hstrings, -⟩ := encodeStructTag_eq_ok.1 htag
    refine .struct ⟨encoded, Outcome.mapErr_eq_ok.2 hencoded⟩ fun param hparam => ?_
    obtain ⟨string, hstring⟩ := Outcome.exists_tryMap_iff.1 ⟨strings, hstrings⟩ param hparam
    exact specified_of_encodeMoveType hstring
  | .mk (.known movetype) (some (.GenericTypeParamIndex index)), text, h => by
    rw [encodeMoveType_content] at h
    obtain ⟨rfl, -⟩ := encodeContent_genericTypeParamIndex_eq_ok.1 h
    exact .genericTypeParam
  | .mk (.known movetype) (some (.Unparsable badstring)), text, h => by
    rw [encodeMoveType_content] at h
    obtain ⟨rfl, rfl, -⟩ := encodeContent_unparsable_eq_ok.1 h
    exact .function

/-- A type that is specified at every node encodes. -/
theorem exists_encodeMoveType_of_specified {value : Input.MoveType}
    (h : Specified crates IsWrittenBare value) :
    ∃ text, encodeMoveType crates value = .ok text := by
  induction h with
  | bare hleaf => exact exists_encodePlain_iff.2 hleaf
  | reference _ ih =>
    obtain ⟨typeStr, hinner⟩ := ih
    exact ⟨_, encodeContent_reference_eq_ok.2 ⟨rfl, _, typeStr, rfl, hinner, rfl⟩⟩
  | vector _ ih =>
    obtain ⟨typeStr, hinner⟩ := ih
    exact ⟨_, encodeContent_vector_eq_ok.2 ⟨rfl, typeStr, hinner, rfl⟩⟩
  | struct haddress _ ih =>
    obtain ⟨encoded, hencoded⟩ := haddress
    obtain ⟨strings, hstrings⟩ := Outcome.exists_tryMap_iff.2 ih
    exact ⟨_, encodeContent_struct_eq_ok.2 ⟨rfl, encodeStructTag_eq_ok.2
      ⟨encoded, strings, Outcome.mapErr_eq_ok.1 hencoded, hstrings, rfl⟩⟩⟩
  | @genericTypeParam index =>
    refine ⟨"T" ++ toString index, ?_⟩
    rw [encodeMoveType_content]
    exact encodeContent_genericTypeParamIndex_eq_ok.2 ⟨rfl, rfl⟩
  | function =>
    refine ⟨"function", ?_⟩
    rw [encodeMoveType_content]
    exact encodeContent_unparsable_eq_ok.2 ⟨rfl, rfl, rfl⟩

/-- Converting and encoding a type succeeds exactly when it is specified at every node, where a
node without content may also be a placeholder. -/
theorem exists_tryEncode_iff {value : Input.MoveType} :
    (∃ text, (MoveType.tryFrom value).bind (MoveType.tryEncode crates) = .ok text) ↔
      Specified crates IsWrittenBare value := by
  rw [MoveType.tryFrom_bind_tryEncode]
  exact ⟨fun ⟨_, h⟩ => specified_of_encodeMoveType h, exists_encodeMoveType_of_specified⟩

/-! ## Placeholders -/

/-- Some node of a type, at any depth, is a placeholder: `Unspecified` or `Unparsable` without
content. -/
inductive HasPlaceholder : Input.MoveType → Prop where
  | bare {movetype : MoveTypes} (h : IsPlaceholder movetype) :
      HasPlaceholder (.mk (.known movetype) none)
  | reference {type : EnumField MoveTypes} {mutable : Bool} {inner : Input.MoveType}
      (h : HasPlaceholder inner) :
      HasPlaceholder (.mk type (some (.Reference mutable (some inner))))
  | vector {type : EnumField MoveTypes} {inner : Input.MoveType} (h : HasPlaceholder inner) :
      HasPlaceholder (.mk type (some (.Vector inner)))
  | struct {type : EnumField MoveTypes} {address module name : String}
      {params : List Input.MoveType} {param : Input.MoveType} (hmem : param ∈ params)
      (h : HasPlaceholder param) :
      HasPlaceholder (.mk type (some (.Struct (.mk address module name params))))

/-- A placeholder is not a plain kind. -/
theorem not_isPlain_of_isPlaceholder {movetype : MoveTypes} (h : IsPlaceholder movetype) :
    ¬ IsPlain movetype := by
  rintro ⟨name, rfl⟩
  rcases h with h | h <;> exact nomatch h

/-- Allowing more without content specifies more. -/
theorem Specified.mono {leaf leaf' : MoveTypes → Prop} (hleaf : ∀ m, leaf m → leaf' m)
    {value : Input.MoveType} (h : Specified crates leaf value) : Specified crates leaf' value := by
  induction h with
  | bare h => exact .bare (hleaf _ h)
  | reference _ ih => exact .reference ih
  | vector _ ih => exact .vector ih
  | struct haddress _ ih => exact .struct haddress ih
  | genericTypeParam => exact .genericTypeParam
  | function => exact .function

/-- Where only plain kinds may be without content, no node is a placeholder. -/
theorem Specified.not_hasPlaceholder {value : Input.MoveType} (h : Specified crates IsPlain value) :
    ¬ HasPlaceholder value := by
  induction h with
  | bare hplain =>
    intro hhas
    cases hhas with
    | bare hplaceholder => exact not_isPlain_of_isPlaceholder hplaceholder hplain
  | reference _ ih =>
    intro hhas
    cases hhas with
    | reference hinner => exact ih hinner
  | vector _ ih =>
    intro hhas
    cases hhas with
    | vector hinner => exact ih hinner
  | struct _ _ ih =>
    intro hhas
    cases hhas with
    | struct hmem hparam => exact ih _ hmem hparam
  | genericTypeParam => nofun
  | function => nofun

/-- A type that encodes and has no placeholder is specified with plain kinds only. -/
theorem Specified.isPlain {value : Input.MoveType} (h : Specified crates IsWrittenBare value) :
    ¬ HasPlaceholder value → Specified crates IsPlain value := by
  induction h with
  | bare hleaf =>
    intro hnot
    exact .bare (hleaf.resolve_right fun hplaceholder => hnot (.bare hplaceholder))
  | reference _ ih => exact fun hnot => .reference (ih fun hinner => hnot (.reference hinner))
  | vector _ ih => exact fun hnot => .vector (ih fun hinner => hnot (.vector hinner))
  | struct haddress _ ih =>
    intro hnot
    exact .struct haddress fun param hmem =>
      ih param hmem fun hparam => hnot (.struct hmem hparam)
  | genericTypeParam => exact fun _ => .genericTypeParam
  | function => exact fun _ => .function

/-- Only fully specified types encode, but for placeholders: encoding agrees with the rule on a
type exactly when no node of it is a placeholder, unless another node is refused anyway. -/
theorem encodes_iff_specified_exact (value : Input.MoveType) :
    ((∃ text, (MoveType.tryFrom value).bind (MoveType.tryEncode crates) = .ok text) ↔
        Specified crates IsPlain value) ↔
      (HasPlaceholder value → ¬ Specified crates IsWrittenBare value) := by
  rw [exists_tryEncode_iff]
  constructor
  · intro hagree hhas hspecified
    exact (hagree.1 hspecified).not_hasPlaceholder hhas
  · intro hnone
    constructor
    · intro hspecified
      exact hspecified.isPlain fun hhas => hnone hhas hspecified
    · exact Specified.mono fun movetype hplain => .inl hplain

/-- A vector whose element type was left at the default of the message: the element type has the
number 0 and no content. -/
def unspecifiedVector : Input.MoveType :=
  .mk (.known .Vector) (some (.Vector (.mk (.known .Unspecified) none)))

/-- A vector of an unspecified type is written as if that were a type. -/
theorem encodes_unspecifiedVector :
    (MoveType.tryFrom unspecifiedVector).bind (MoveType.tryEncode sampleCrates) =
        .ok "Vector<UNSPECIFIED>" ∧
      ¬ ((∃ text, (MoveType.tryFrom unspecifiedVector).bind (MoveType.tryEncode sampleCrates) =
          .ok text) ↔
        Specified sampleCrates IsPlain unspecifiedVector) := by
  have htext : (MoveType.tryFrom unspecifiedVector).bind (MoveType.tryEncode sampleCrates) =
      .ok "Vector<UNSPECIFIED>" := by
    have hinner : encodeMoveType sampleCrates (.mk (.known .Unspecified) none) =
        .ok "UNSPECIFIED" := rfl
    rw [MoveType.tryFrom_bind_tryEncode]
    exact encodeContent_vector_eq_ok.2 ⟨rfl, _, hinner, rfl⟩
  have hhas : HasPlaceholder unspecifiedVector := .vector (.bare (.inl rfl))
  refine ⟨htext, fun hagree => ?_⟩
  exact (hagree.1 ⟨_, htext⟩).not_hasPlaceholder hhas

end AptosEtl.Reps
