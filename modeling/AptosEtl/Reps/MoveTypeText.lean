import AptosEtl.Lib.Decimal
import AptosEtl.Reps.MoveTypeDomain
import AptosEtl.Reps.Standardize

/-!
# Move type strings are unambiguous

A written type is a word, such as `U64` or `T0`, or has a word in front of its first delimiter:
nothing before `&`, `Vector` before `<`, and the address before `::`. What follows a type inside
another one is a comma or a closing bracket, neither of which is such a delimiter. So the first
word and what comes after it tell the kinds apart, and a type reads back with the text after it
(`readsBack`), level by level.
-/

namespace AptosEtl.Reps

open Rust Input Delimited

/-! ## Names -/

/-- The characters of a Move identifier: letters, digits and the underscore. -/
def isIdentifierChar (c : Char) : Bool := c.isAlphanum || c == '_'

/-- The characters of an upper-case name: capital letters, digits and the underscore. -/
def isUpperChar (c : Char) : Bool := c.isUpper || c.isDigit || c == '_'

/-- A Move identifier, which does not start with a digit. -/
structure IsIdentifier (name : String) : Prop where
  chars : ∀ c ∈ name.toList, isIdentifierChar c = true
  start : ∀ c ∈ name.toList.head?, c.isDigit = false
  ne : name ≠ ""

/-- What is assumed of the names of the kinds in the protocol crate, after their prefix: they are in
upper case and pairwise distinct, and none of them is `T` and a number. -/
structure EnumNames (names : String → Prop) : Prop where
  upper : ∀ name, names name → ∀ c ∈ name.toList, isUpperChar c = true
  distinct : ∀ name, names name → ∀ movetype,
    moveTypeName movetype = moveTypeName (.Plain name) → movetype = .Plain name
  notIndex : ∀ name, names name → ∀ index : ℕ, name ≠ "T" ++ toString index

/-- Every kind in a type is one of the crate, and every module and struct name an identifier. -/
inductive WellNamed (names : String → Prop) : Input.MoveType → Prop where
  | bare {type : EnumField MoveTypes} (h : ∀ name, type = .known (.Plain name) → names name) :
      WellNamed names (.mk type none)
  | emptyReference {type : EnumField MoveTypes} {mutable : Bool} :
      WellNamed names (.mk type (some (.Reference mutable none)))
  | reference {type : EnumField MoveTypes} {mutable : Bool} {inner : Input.MoveType}
      (h : WellNamed names inner) :
      WellNamed names (.mk type (some (.Reference mutable (some inner))))
  | vector {type : EnumField MoveTypes} {inner : Input.MoveType} (h : WellNamed names inner) :
      WellNamed names (.mk type (some (.Vector inner)))
  | struct {type : EnumField MoveTypes} {address module name : String}
      {params : List Input.MoveType} (hmodule : IsIdentifier module) (hname : IsIdentifier name)
      (hparams : ∀ param ∈ params, WellNamed names param) :
      WellNamed names (.mk type (some (.Struct (.mk address module name params))))
  | genericTypeParam {type : EnumField MoveTypes} {index : UInt32} :
      WellNamed names (.mk type (some (.GenericTypeParamIndex index)))
  | unparsable {type : EnumField MoveTypes} {text : String} :
      WellNamed names (.mk type (some (.Unparsable text)))

/-! ## Padded addresses -/

mutual

/-- A type with the padded form of every struct address in it. -/
def padAddresses : Input.MoveType → Input.MoveType
  | .mk type none => .mk type none
  | .mk type (some content) => .mk type (some (padContent content))

/-- Content with the padded form of every struct address in it. -/
def padContent : Content → Content
  | .Vector inner => .Vector (padAddresses inner)
  | .Struct tag => .Struct (padTag tag)
  | .GenericTypeParamIndex index => .GenericTypeParamIndex index
  | .Reference mutable none => .Reference mutable none
  | .Reference mutable (some target) => .Reference mutable (some (padAddresses target))
  | .Unparsable text => .Unparsable text

/-- A tag with the padded form of its address and of those in its type arguments. -/
def padTag : MoveStructTag → MoveStructTag
  | .mk address module name params =>
    .mk (Address.padded (Address.stripPrefix address)) module name (padParams params)

/-- Type arguments with the padded form of every struct address in them. -/
def padParams : List Input.MoveType → List Input.MoveType
  | [] => []
  | param :: params => padAddresses param :: padParams params

end

/-- Type arguments are padded one by one. -/
theorem padParams_eq_map (params : List Input.MoveType) :
    padParams params = params.map padAddresses := by
  induction params with
  | nil => rw [padParams, List.map_nil]
  | cons param params ih => rw [padParams, List.map_cons, ih]

/-! ## Words -/

/-- The delimiters of a written type. -/
def IsDelimiter (c : Char) : Prop := c ∈ [',', '>', '<', ':', '&']

/-- The delimiters that come after a type inside another one. -/
def IsFollow (c : Char) : Prop := c ∈ [',', '>']

/-- What may follow is a delimiter. -/
theorem IsFollow.isDelimiter {c : Char} (h : IsFollow c) : IsDelimiter c := by
  simp only [IsFollow, List.mem_cons, List.not_mem_nil, or_false] at h
  rcases h with rfl | rfl <;> simp [IsDelimiter]

/-- A text whose characters pass a test that no delimiter passes is a word. -/
theorem word_of_forall {p : Char → Bool} (hp : [',', '>', '<', ':', '&'].all (!p ·) = true)
    {text : List Char} (h : ∀ c ∈ text, p c = true) : Word IsDelimiter text := by
  intro c hc hdelimiter
  have hnot := List.all_eq_true.1 hp c hdelimiter
  simp [h c hc] at hnot

/-- An identifier is a word. -/
theorem IsIdentifier.word {name : String} (h : IsIdentifier name) :
    Word IsDelimiter name.toList :=
  word_of_forall (p := isIdentifierChar) (by decide) h.chars

/-- An encoded address is standardized. -/
theorem standardized_of_tryFixString {address encoded : String}
    (h : Address.tryFixString address = .ok encoded) : Standardized encoded :=
  Address.standardized_of_validateString (Address.validateString_of_tryFixStringLoop h)

/-- An encoded address is a word. -/
theorem word_of_tryFixString {address encoded : String}
    (h : Address.tryFixString address = .ok encoded) : Word IsDelimiter encoded.toList := by
  obtain ⟨digits, hdigits, -, hhex⟩ := standardized_of_tryFixString h
  have hprefix : Word IsDelimiter Address.addressPrefix :=
    word_of_forall (p := isIdentifierChar) (by decide) (List.all_eq_true.1 (by decide))
  have hword : Word IsDelimiter digits := word_of_forall (p := isAsciiHexdigit) (by decide) hhex
  intro c hc
  rw [hdigits] at hc
  rcases List.mem_append.1 hc with hc | hc
  · exact hprefix c hc
  · exact hword c hc

/-! ## Types that are written as a word -/

/-- The types that are written as a single word, with that word. -/
inductive WrittenWord (names : String → Prop) : Input.MoveType → String → Prop where
  | bare {movetype : MoveTypes} {text : String}
      (htext : moveTypeName movetype = "MOVE_TYPES_" ++ text)
      (h : ∀ name, movetype = .Plain name → names name) :
      WrittenWord names (.mk (.known movetype) none) text
  | genericTypeParam {index : UInt32} :
      WrittenWord names (.mk (.known .GenericTypeParam) (some (.GenericTypeParamIndex index)))
        ("T" ++ toString index)
  | function :
      WrittenWord names (.mk (.known .Unparsable) (some (.Unparsable "function"))) "function"

section Words

variable {names : String → Prop} (hnames : EnumNames names)

include hnames

/-- The kinds have pairwise distinct names. -/
theorem eq_of_moveTypeName_eq {movetype movetype' : MoveTypes}
    (h : ∀ name, movetype = .Plain name → names name)
    (h' : ∀ name, movetype' = .Plain name → names name)
    (heq : moveTypeName movetype = moveTypeName movetype') : movetype = movetype' := by
  cases movetype' with
  | Plain name' => exact hnames.distinct name' (h' name' rfl) _ heq
  | _ =>
    cases movetype with
    | Plain name => exact (hnames.distinct name (h name rfl) _ heq.symm).symm
    | _ => first | rfl | exact absurd heq (by decide)

/-- The name of a kind is in upper case, after its prefix. -/
theorem isUpperChar_of_moveTypeName {movetype : MoveTypes} {text : String}
    (htext : moveTypeName movetype = "MOVE_TYPES_" ++ text)
    (h : ∀ name, movetype = .Plain name → names name) :
    ∀ c ∈ text.toList, isUpperChar c = true := by
  -- for a kind that is not plain the text is spelled out
  have hspelled : ∀ name, "MOVE_TYPES_" ++ name = "MOVE_TYPES_" ++ text →
      name.toList.all isUpperChar = true → ∀ c ∈ text.toList, isUpperChar c = true := by
    intro name heq hall
    rw [← (String.append_right_inj "MOVE_TYPES_").1 heq]
    exact List.all_eq_true.1 hall
  cases movetype with
  | Plain name => exact hspelled name htext (List.all_eq_true.2 (hnames.upper name (h name rfl)))
  | Unspecified => exact hspelled "UNSPECIFIED" htext (by decide)
  | Vector => exact hspelled "VECTOR" htext (by decide)
  | Struct => exact hspelled "STRUCT" htext (by decide)
  | GenericTypeParam => exact hspelled "GENERIC_TYPE_PARAM" htext (by decide)
  | Reference => exact hspelled "REFERENCE" htext (by decide)
  | Unparsable => exact hspelled "UNPARSABLE" htext (by decide)

/-- No kind is named like a generic parameter is written. -/
theorem moveTypeName_ne_index {movetype : MoveTypes} {index : UInt32}
    (h : ∀ name, movetype = .Plain name → names name) :
    moveTypeName movetype ≠ "MOVE_TYPES_" ++ ("T" ++ toString index) := by
  intro htext
  -- for a kind that is not plain the first letter is not `T`
  have hspelled : ∀ name : String, name.toList.head? ≠ some 'T' →
      "MOVE_TYPES_" ++ name ≠ "MOVE_TYPES_" ++ ("T" ++ toString index) := by
    intro name hhead heq
    rw [(String.append_right_inj "MOVE_TYPES_").1 heq, String.toList_append] at hhead
    exact hhead rfl
  cases movetype with
  | Plain name =>
    exact hnames.notIndex name (h name rfl) index.toNat
      ((String.append_right_inj "MOVE_TYPES_").1 htext)
  | Unspecified => exact hspelled "UNSPECIFIED" (by decide) htext
  | Vector => exact hspelled "VECTOR" (by decide) htext
  | Struct => exact hspelled "STRUCT" (by decide) htext
  | GenericTypeParam => exact hspelled "GENERIC_TYPE_PARAM" (by decide) htext
  | Reference => exact hspelled "REFERENCE" (by decide) htext
  | Unparsable => exact hspelled "UNPARSABLE" (by decide) htext

/-- A written word is of upper-case characters, or `function`. -/
theorem WrittenWord.chars {value : Input.MoveType} {text : String}
    (h : WrittenWord names value text) :
    (∀ c ∈ text.toList, isUpperChar c = true) ∨ text = "function" := by
  cases h with
  | bare htext h => exact .inl (isUpperChar_of_moveTypeName hnames htext h)
  | genericTypeParam =>
    refine .inl fun c hc => ?_
    rw [String.toList_append] at hc
    rcases List.mem_append.1 hc with hc | hc
    · rw [List.mem_singleton.1 hc]
      rfl
    · have hdigit : c.isDigit = true := Decimal.isDigit_of_mem_toString hc
      simp [isUpperChar, hdigit]
  | function => exact .inr rfl

/-- A written word is a word. -/
theorem WrittenWord.word {value : Input.MoveType} {text : String}
    (h : WrittenWord names value text) : Word IsDelimiter text.toList := by
  rcases h.chars hnames with hupper | rfl
  · exact word_of_forall (p := isUpperChar) (by decide) hupper
  · exact word_of_forall (p := isIdentifierChar) (by decide) (List.all_eq_true.1 (by decide))

/-- A written word determines the type. -/
theorem WrittenWord.unique {value value' : Input.MoveType} {text : String}
    (h : WrittenWord names value text) (h' : WrittenWord names value' text) : value = value' := by
  have hfunction : ¬ ∀ c ∈ "function".toList, isUpperChar c = true := by
    rw [← List.all_eq_true]
    decide
  cases h with
  | bare htext hkind =>
    generalize hword : text = word at h'
    cases h' with
    | bare htext' hkind' =>
      rw [← hword] at htext'
      rw [eq_of_moveTypeName_eq hnames hkind hkind' (htext.trans htext'.symm)]
    | genericTypeParam => exact absurd (hword ▸ htext) (moveTypeName_ne_index hnames hkind)
    | function =>
      have hupper := isUpperChar_of_moveTypeName hnames htext hkind
      rw [hword] at hupper
      exact absurd hupper hfunction
  | @genericTypeParam index =>
    generalize hword : "T" ++ toString index = word at h'
    cases h' with
    | bare htext' hkind' => exact absurd (hword ▸ htext') (moveTypeName_ne_index hnames hkind')
    | @genericTypeParam index' =>
      have hnat : index.toNat = index'.toNat :=
        Decimal.toString_nat_injective ((String.append_right_inj "T").1 hword)
      rw [UInt32.toNat_inj.1 hnat]
    | function =>
      have hhead := congrArg (fun word => word.toList.head?) hword
      exact absurd hhead (by simp)
  | function =>
    generalize hword : "function" = word at h'
    cases h' with
    | bare htext' hkind' =>
      have hupper := isUpperChar_of_moveTypeName hnames htext' hkind'
      rw [← hword] at hupper
      exact absurd hupper hfunction
    | @genericTypeParam index' =>
      have hhead := congrArg (fun word => word.toList.head?) hword
      exact absurd hhead (by simp)
    | function => rfl

end Words

/-! ## What a written type looks like -/

variable {crates : Crates}

/-- The mark of a reference, after the `&`. -/
def referenceMark (mutable : Bool) : List Char := if mutable then "mut ".toList else []

/-- The written type arguments of a tag. -/
def argumentChars (texts : List (List Char)) : List Char :=
  if texts.isEmpty then [] else '<' :: ([','].intercalate texts ++ ['>'])

/-- A well-named type is written as these characters. -/
def Writes (crates : Crates) (names : String → Prop) (value : Input.MoveType) (chars : List Char) :
    Prop :=
  WellNamed names value ∧ encodeMoveType crates value = .ok (String.ofList chars)

/-- The forms of a written type: a word, or a word and a delimiter that tells its kind. -/
inductive Form (crates : Crates) (names : String → Prop) : Input.MoveType → List Char → Prop where
  | word {value : Input.MoveType} {text : String} (h : WrittenWord names value text) :
      Form crates names value text.toList
  | reference {mutable : Bool} {inner : Input.MoveType} {typeStr : List Char}
      (h : Writes crates names inner typeStr) :
      Form crates names (.mk (.known .Reference) (some (.Reference mutable (some inner))))
        ('&' :: (referenceMark mutable ++ typeStr))
  | vector {inner : Input.MoveType} {typeStr : List Char} (h : Writes crates names inner typeStr) :
      Form crates names (.mk (.known .Vector) (some (.Vector inner)))
        ("Vector".toList ++ '<' :: (typeStr ++ ['>']))
  | struct {address encoded module name : String} {params : List Input.MoveType}
      {strings : List (List Char)} (hencoded : Address.tryFixString address = .ok encoded)
      (hmodule : IsIdentifier module) (hname : IsIdentifier name)
      (hparams : List.Forall₂ (Writes crates names) params strings) :
      Form crates names (.mk (.known .Struct) (some (.Struct (.mk address module name params))))
        (encoded.toList ++ ':' :: ':' :: (module.toList ++ ':' :: ':' ::
          (name.toList ++ argumentChars strings)))

/-- The characters of the type arguments. -/
theorem toList_encodeTypeArguments (strings : List String) :
    (encodeTypeArguments strings).toList = argumentChars (strings.map String.toList) := by
  cases strings with
  | nil => rfl
  | cons string strings => simp [encodeTypeArguments, argumentChars]

/-- The mark of a reference, whole. -/
theorem toList_reference (mutable : Bool) (typeStr : String) :
    ((if mutable then "&mut " else "&") ++ typeStr).toList =
      '&' :: (referenceMark mutable ++ typeStr.toList) := by
  rw [String.toList_append]
  cases mutable <;> rfl

/-- The type arguments of a well-named tag are written one by one. -/
theorem forall₂_writes {names : String → Prop} {params : List Input.MoveType}
    {strings : List String} (hparams : ∀ param ∈ params, WellNamed names param)
    (hstrings : List.Forall₂ (fun param string => encodeMoveType crates param = .ok string) params
      strings) :
    List.Forall₂ (Writes crates names) params (strings.map String.toList) := by
  induction hstrings with
  | nil => exact .nil
  | cons hstring _ ih =>
    refine .cons ⟨hparams _ List.mem_cons_self, ?_⟩
      (ih fun param hparam => hparams param (List.mem_cons_of_mem _ hparam))
    rwa [String.ofList_toList]

/-- A type that encodes has a form. -/
theorem form_of_writes {names : String → Prop} {value : Input.MoveType} {chars : List Char}
    (h : Writes crates names value chars) : Form crates names value chars := by
  obtain ⟨hnamed, h⟩ := h
  obtain ⟨text, rfl⟩ : ∃ text : String, chars = text.toList :=
    ⟨String.ofList chars, String.toList_ofList.symm⟩
  rw [String.ofList_toList] at h
  obtain ⟨type, content⟩ := value
  cases type with
  | unknown number =>
    rw [encodeMoveType_unknown] at h
    exact nomatch h
  | known movetype =>
    cases hnamed with
    | bare hkind =>
      refine .word (.bare ?_ fun name hname => hkind name (congrArg _ hname))
      rw [encodeMoveType_bare, encodePlain_eq_ok] at h
      rcases h with ⟨rfl, rfl⟩ | ⟨rfl, rfl⟩ | rfl <;> rfl
    | emptyReference =>
      obtain ⟨-, inner, typeStr, htarget, -⟩ := encodeContent_reference_eq_ok.1 h
      exact nomatch htarget
    | @reference _ mutable inner hinner =>
      obtain ⟨rfl, _, typeStr, ⟨⟩, htypeStr, rfl⟩ := encodeContent_reference_eq_ok.1 h
      rw [toList_reference]
      exact .reference ⟨hinner, by rwa [String.ofList_toList]⟩
    | vector hinner =>
      obtain ⟨rfl, typeStr, htypeStr, rfl⟩ := encodeContent_vector_eq_ok.1 h
      rw [String.toList_append, String.toList_append, List.append_assoc]
      exact .vector ⟨hinner, by rwa [String.ofList_toList]⟩
    | struct hmodule hname hparams =>
      obtain ⟨rfl, htag⟩ := encodeContent_struct_eq_ok.1 h
      obtain ⟨encoded, strings, hencoded, hstrings, rfl⟩ := encodeStructTag_eq_ok.1 htag
      have hwrites := forall₂_writes hparams (Outcome.tryMap_eq_ok.1 hstrings)
      simp only [String.toList_append, toList_encodeTypeArguments, List.append_assoc]
      exact .struct hencoded hmodule hname hwrites
    | genericTypeParam =>
      rw [encodeMoveType_content] at h
      obtain ⟨rfl, rfl⟩ := encodeContent_genericTypeParamIndex_eq_ok.1 h
      exact .word .genericTypeParam
    | unparsable =>
      rw [encodeMoveType_content] at h
      obtain ⟨rfl, rfl, rfl⟩ := encodeContent_unparsable_eq_ok.1 h
      exact .word .function

/-! ## Reading back -/

/-- The delimiter after the first word of a written type. -/
def lead : Input.MoveType → Option Char
  | .mk _ (some (.Reference _ _)) => some '&'
  | .mk _ (some (.Vector _)) => some '<'
  | .mk _ (some (.Struct _)) => some ':'
  | _ => none

/-- A type that is a word has no lead. -/
theorem WrittenWord.lead {names : String → Prop} {value : Input.MoveType} {text : String}
    (h : WrittenWord names value text) : lead value = none := by
  cases h <;> rfl

/-- A type without a lead is written as a word. -/
theorem Form.exists_writtenWord {names : String → Prop} {value : Input.MoveType}
    {chars : List Char} (h : Form crates names value chars) (hlead : lead value = none) :
    ∃ text : String, chars = text.toList ∧ WrittenWord names value text := by
  cases h with
  | @word _ text h => exact ⟨text, rfl, h⟩
  | reference => exact nomatch hlead
  | vector => exact nomatch hlead
  | struct => exact nomatch hlead

/-- The mark of a reference and what comes after it are determined by the two together, where that
does not start like the mark. -/
theorem referenceMark_append_inj {mutable mutable' : Bool} {r s : List Char}
    (h : referenceMark mutable ++ r = referenceMark mutable' ++ s) (hr : r.head? ≠ some 'm')
    (hs : s.head? ≠ some 'm') : mutable = mutable' ∧ r = s := by
  cases mutable with
  | true =>
    cases mutable' with
    | true => exact ⟨rfl, List.append_cancel_left h⟩
    | false => exact absurd (by rw [← show _ = s from h]; rfl) hs
  | false =>
    cases mutable' with
    | true => exact absurd (by rw [show r = _ from h]; rfl) hr
    | false => exact ⟨rfl, h⟩

section Reading

variable {names : String → Prop} (hnames : EnumNames names)

include hnames

/-- A written type is a word and what its lead starts. -/
theorem Form.exists_word {value : Input.MoveType} {chars : List Char}
    (h : Form crates names value chars) :
    ∃ word rest, Word IsDelimiter word ∧ chars = word ++ rest ∧
      (rest = [] ∧ lead value = none ∨
        ∃ c tail, rest = c :: tail ∧ lead value = some c ∧ IsDelimiter c ∧ ¬ IsFollow c) := by
  cases h with
  | word h =>
    exact ⟨_, [], h.word hnames, (List.append_nil _).symm, .inl ⟨rfl, h.lead⟩⟩
  | reference h =>
    exact ⟨[], _, nofun, rfl, .inr ⟨'&', _, rfl, rfl, by simp [IsDelimiter], by simp [IsFollow]⟩⟩
  | vector h =>
    have hword : Word IsDelimiter "Vector".toList :=
      word_of_forall (p := isIdentifierChar) (by decide) (List.all_eq_true.1 (by decide))
    exact ⟨_, _, hword, rfl, .inr ⟨'<', _, rfl, rfl, by simp [IsDelimiter], by simp [IsFollow]⟩⟩
  | struct hencoded hmodule hname hparams =>
    have hword := word_of_tryFixString hencoded
    exact ⟨_, _, hword, rfl, .inr ⟨':', _, rfl, rfl, by simp [IsDelimiter], by simp [IsFollow]⟩⟩

/-- Types that are written alike, up to what follows them, have the same lead. -/
theorem lead_eq {x y : Input.MoveType} {t u r s : List Char} (hx : Writes crates names x t)
    (hy : Writes crates names y u) (hr : Stopped IsFollow r) (hs : Stopped IsFollow s)
    (h : t ++ r = u ++ s) : lead x = lead y := by
  obtain ⟨word, rest, hword, rfl, hrest⟩ := (form_of_writes hx).exists_word hnames
  obtain ⟨word', rest', hword', rfl, hrest'⟩ := (form_of_writes hy).exists_word hnames
  rw [List.append_assoc, List.append_assoc] at h
  rcases hrest with ⟨rfl, hlead⟩ | ⟨c, tail, rfl, hlead, hdelimiter, hfollow⟩
  · rcases hrest' with ⟨rfl, hlead'⟩ | ⟨d, tail', rfl, hlead', hdelimiter', hfollow'⟩
    · rw [hlead, hlead']
    · exact absurd h
        (hword.append_ne hword' (fun _ => IsFollow.isDelimiter) hr hdelimiter' hfollow')
  · rcases hrest' with ⟨rfl, hlead'⟩ | ⟨d, tail', rfl, hlead', hdelimiter', hfollow'⟩
    · exact absurd h.symm
        (hword'.append_ne hword (fun _ => IsFollow.isDelimiter) hs hdelimiter hfollow)
    · obtain ⟨-, rfl, -⟩ := hword.append_cons_inj hword' hdelimiter hdelimiter' h
      rw [hlead, hlead']

/-- No written type starts with an `m`, nor does what follows one. -/
theorem head_ne_m {value : Input.MoveType} {chars s : List Char}
    (h : Writes crates names value chars)
    (hs : Stopped IsFollow s) : (chars ++ s).head? ≠ some 'm' := by
  have hfollow : ¬ IsFollow 'm' := by simp [IsFollow]
  intro hhead
  cases form_of_writes h with
  | @word _ text hword =>
    cases hlist : text.toList with
    | nil =>
      rw [hlist, List.nil_append] at hhead
      exact hfollow (hs 'm' hhead)
    | cons c cs =>
      rw [hlist, List.cons_append, List.head?_cons, Option.some.injEq] at hhead
      subst hhead
      rcases hword.chars hnames with hupper | rfl
      · exact absurd (hupper 'm' (by rw [hlist]; exact List.mem_cons_self)) (by decide)
      · exact absurd hlist (by simp)
  | reference => exact absurd hhead (by simp)
  | vector => exact absurd hhead (by simp)
  | struct hencoded hmodule hname hparams =>
    obtain ⟨digits, hdigits, -, -⟩ := standardized_of_tryFixString hencoded
    rw [hdigits] at hhead
    exact absurd hhead (by simp [Address.addressPrefix])

/-- The language of written types. -/
def Reads (crates : Crates) (names : String → Prop) (value : Input.MoveType) : Prop :=
  ReadsBack IsFollow (Writes crates names) padAddresses value

/-- A type that is a word reads back. -/
theorem reads_word {value : Input.MoveType} (hlead : lead value = none) :
    Reads crates names value := by
  intro y t u r s hx hy hr hs h
  have hlead' : lead y = none := (lead_eq hnames hx hy hr hs h).symm.trans hlead
  obtain ⟨text, rfl, hword⟩ := (form_of_writes hx).exists_writtenWord hlead
  obtain ⟨text', rfl, hword'⟩ := (form_of_writes hy).exists_writtenWord hlead'
  obtain ⟨htext, hrest⟩ := (hword.word hnames).append_inj (hword'.word hnames)
    (hr.mono fun _ => IsFollow.isDelimiter) (hs.mono fun _ => IsFollow.isDelimiter) h
  rw [← String.toList_inj.1 htext] at hword'
  exact ⟨congrArg padAddresses (hword.unique hnames hword'), hrest⟩

/-- A reference reads back when its target does. -/
theorem reads_reference {mutable : Bool} {inner : Input.MoveType} (ih : Reads crates names inner) :
    Reads crates names (.mk (.known .Reference) (some (.Reference mutable (some inner)))) := by
  intro y t u r s hx hy hr hs h
  have hlead := lead_eq hnames hx hy hr hs h
  cases form_of_writes hx with
  | word hword => cases hword
  | reference hinner =>
    cases form_of_writes hy with
    | word hword => exact absurd (hlead.trans hword.lead) nofun
    | reference hinner' =>
      rw [List.cons_append, List.cons_append, List.append_assoc, List.append_assoc] at h
      obtain ⟨rfl, htext⟩ := referenceMark_append_inj (List.cons.inj h).2
        (head_ne_m hnames hinner hr) (head_ne_m hnames hinner' hs)
      obtain ⟨hkey, hrest⟩ := ih hinner hinner' hr hs htext
      refine ⟨?_, hrest⟩
      rw [padAddresses, padAddresses, padContent, padContent, hkey]
    | vector => exact absurd hlead (by simp [lead])
    | struct => exact absurd hlead (by simp [lead])

/-- A vector reads back when its element type does. -/
theorem reads_vector {inner : Input.MoveType} (ih : Reads crates names inner) :
    Reads crates names (.mk (.known .Vector) (some (.Vector inner))) := by
  intro y t u r s hx hy hr hs h
  have hlead := lead_eq hnames hx hy hr hs h
  have hclose : ∀ rest, Stopped IsFollow ('>' :: rest) := fun rest =>
    stopped_cons (by simp [IsFollow])
  cases form_of_writes hx with
  | word hword => cases hword
  | vector hinner =>
    cases form_of_writes hy with
    | word hword => exact absurd (hlead.trans hword.lead) nofun
    | reference => exact absurd hlead (by simp [lead])
    | vector hinner' =>
      rw [List.append_assoc, List.append_assoc] at h
      have htext := List.append_cancel_left h
      rw [List.cons_append, List.cons_append, List.append_assoc, List.append_assoc] at htext
      obtain ⟨hkey, hrest⟩ := ih hinner hinner' (hclose r) (hclose s) (List.cons.inj htext).2
      refine ⟨?_, (List.cons.inj hrest).2⟩
      rw [padAddresses, padAddresses, padContent, padContent, hkey]
    | struct => exact absurd hlead (by simp [lead])

omit hnames in
/-- Type arguments, if there are any, in front of a text. -/
theorem argumentChars_cons_append (string : List Char) (strings : List (List Char))
    (r : List Char) :
    argumentChars (string :: strings) ++ r =
      '<' :: ([','].intercalate (string :: strings) ++ '>' :: r) := by
  rw [argumentChars, List.isEmpty_cons, if_neg Bool.false_ne_true, List.cons_append,
    List.append_assoc, List.singleton_append]

omit hnames in
/-- The names of a tag end where its type arguments start, or where the tag ends. -/
theorem stopped_argumentChars {strings : List (List Char)} {r : List Char}
    (hr : Stopped IsFollow r) : Stopped IsDelimiter (argumentChars strings ++ r) := by
  cases strings with
  | nil => exact hr.mono fun _ => IsFollow.isDelimiter
  | cons string strings =>
    rw [argumentChars_cons_append]
    exact stopped_cons (by simp [IsDelimiter])

omit hnames in
/-- The type arguments of a tag read back when each of them does. -/
theorem argumentChars_append_inj {params params' : List Input.MoveType}
    {ts us : List (List Char)} {r s : List Char} (ih : ∀ param ∈ params, Reads crates names param)
    (hts : List.Forall₂ (Writes crates names) params ts)
    (hus : List.Forall₂ (Writes crates names) params' us)
    (hr : Stopped IsFollow r) (hs : Stopped IsFollow s)
    (h : argumentChars ts ++ r = argumentChars us ++ s) :
    params.map padAddresses = params'.map padAddresses ∧ r = s := by
  have hopen : ¬ IsFollow '<' := by simp [IsFollow]
  cases hts with
  | nil =>
    cases hus with
    | nil => exact ⟨rfl, h⟩
    | cons => exact absurd (hr '<' (by rw [show r = _ from h]; rfl)) hopen
  | cons ht hts =>
    cases hus with
    | nil => exact absurd (hs '<' (by rw [← show _ = s from h]; rfl)) hopen
    | cons hu hus =>
      have hclose : ∀ rest, Stopped IsFollow ('>' :: rest) := fun rest =>
        stopped_cons (by simp [IsFollow])
      have hcomma : ∀ rest, ',' ∉ ('>' :: rest : List Char).head? := by simp
      rw [argumentChars_cons_append, argumentChars_cons_append] at h
      obtain ⟨hkeys, hrest⟩ := ReadsBack.joined ih (by simp [IsFollow]) (.cons ht hts)
        (.cons hu hus) (List.cons_ne_nil _ _) (List.cons_ne_nil _ _) (hclose r) (hclose s)
        (hcomma r) (hcomma s) (List.cons.inj h).2
      exact ⟨hkeys, (List.cons.inj hrest).2⟩

/-- A struct reads back when its type arguments do. -/
theorem reads_struct {address module name : String} {params : List Input.MoveType}
    (ih : ∀ param ∈ params, Reads crates names param) :
    Reads crates names
      (.mk (.known .Struct) (some (.Struct (.mk address module name params)))) := by
  intro y t u r s hx hy hr hs h
  have hlead := lead_eq hnames hx hy hr hs h
  have hcolon : IsDelimiter ':' := by simp [IsDelimiter]
  cases form_of_writes hx with
  | word hword => cases hword
  | struct hencoded hmodule hname hparams =>
    cases form_of_writes hy with
    | word hword => exact absurd (hlead.trans hword.lead) nofun
    | reference => exact absurd hlead (by simp [lead])
    | vector => exact absurd hlead (by simp [lead])
    | struct hencoded' hmodule' hname' hparams' =>
      simp only [List.append_assoc, List.cons_append] at h
      -- the address up to the first colon, the module up to the next, the name up to its end
      obtain ⟨haddress, -, h⟩ := (word_of_tryFixString hencoded).append_cons_inj
        (word_of_tryFixString hencoded') hcolon hcolon h
      obtain ⟨hmoduleEq, -, h⟩ := hmodule.word.append_cons_inj hmodule'.word hcolon hcolon
        (List.cons.inj h).2
      obtain ⟨hnameEq, h⟩ := hname.word.append_inj hname'.word (stopped_argumentChars hr)
        (stopped_argumentChars hs) (List.cons.inj h).2
      obtain ⟨hkeys, hrest⟩ := argumentChars_append_inj ih hparams hparams' hr hs h
      obtain ⟨-, rfl⟩ := Address.tryFixString_eq_ok.1 hencoded
      obtain ⟨-, rfl⟩ := Address.tryFixString_eq_ok.1 hencoded'
      obtain rfl := String.toList_inj.1 hmoduleEq
      obtain rfl := String.toList_inj.1 hnameEq
      refine ⟨?_, hrest⟩
      rw [padAddresses, padAddresses, padContent, padContent, padTag, padTag,
        String.toList_inj.1 haddress, padParams_eq_map, padParams_eq_map, hkeys]

/-- Every type reads back. -/
theorem reads : ∀ value, Reads crates names value
  | .mk (.unknown number) content => by
    rintro y t u r s ⟨-, hx⟩
    rw [encodeMoveType_unknown] at hx
    exact nomatch hx
  | .mk (.known movetype) none => reads_word hnames rfl
  | .mk (.known movetype) (some (.Reference mutable none)) => by
    rintro y t u r s ⟨-, hx⟩
    obtain ⟨-, inner, typeStr, htarget, -⟩ := encodeContent_reference_eq_ok.1 hx
    exact nomatch htarget
  | .mk (.known movetype) (some (.Reference mutable (some inner))) => by
    intro y t u r s hx
    obtain ⟨rfl, -⟩ := encodeContent_reference_eq_ok.1 hx.2
    exact reads_reference hnames (reads inner) hx
  | .mk (.known movetype) (some (.Vector inner)) => by
    intro y t u r s hx
    obtain ⟨rfl, -⟩ := encodeContent_vector_eq_ok.1 hx.2
    exact reads_vector hnames (reads inner) hx
  | .mk (.known movetype) (some (.Struct (.mk address module name params))) => by
    intro y t u r s hx
    obtain ⟨rfl, -⟩ := encodeContent_struct_eq_ok.1 hx.2
    exact reads_struct hnames (fun param hparam => reads param) hx
  | .mk (.known movetype) (some (.GenericTypeParamIndex index)) => reads_word hnames rfl
  | .mk (.known movetype) (some (.Unparsable text)) => reads_word hnames rfl

end Reading

/-- Move type strings are unambiguous: types that are written as the same text are equal up to the
padded form of their struct addresses. -/
theorem eq_of_tryEncode_eq {names : String → Prop} (hnames : EnumNames names)
    {a b : Input.MoveType} (ha : WellNamed names a) (hb : WellNamed names b) {text : String}
    (hencodedA : (MoveType.tryFrom a).bind (MoveType.tryEncode crates) = .ok text)
    (hencodedB : (MoveType.tryFrom b).bind (MoveType.tryEncode crates) = .ok text) :
    padAddresses a = padAddresses b := by
  rw [MoveType.tryFrom_bind_tryEncode] at hencodedA hencodedB
  have hwritesA : Writes crates names a text.toList := ⟨ha, by rwa [String.ofList_toList]⟩
  have hwritesB : Writes crates names b text.toList := ⟨hb, by rwa [String.ofList_toList]⟩
  exact (reads hnames a hwritesA hwritesB stopped_nil stopped_nil rfl).1

/-- The names of the kinds that the tests of the code use. -/
def sampleNames (name : String) : Prop := name ∈ ["BOOL", "U64", "ADDRESS", "SIGNER"]

/-- They are in upper case, distinct and not those of generic parameters. -/
theorem enumNames_sampleNames : EnumNames sampleNames where
  upper := by
    have hupper : ["BOOL", "U64", "ADDRESS", "SIGNER"].all (·.toList.all isUpperChar) = true := by
      decide
    intro name hname
    exact List.all_eq_true.1 (List.all_eq_true.1 hupper name hname)
  distinct := by
    have hspelled : ∀ other ∈ ["UNSPECIFIED", "VECTOR", "STRUCT", "GENERIC_TYPE_PARAM",
        "REFERENCE", "UNPARSABLE"], ¬ sampleNames other := by
      simp [sampleNames]
    intro name hname movetype heq
    have hnot : ∀ other ∈ ["UNSPECIFIED", "VECTOR", "STRUCT", "GENERIC_TYPE_PARAM",
        "REFERENCE", "UNPARSABLE"], "MOVE_TYPES_" ++ other ≠ "MOVE_TYPES_" ++ name := by
      intro other hother h
      rw [← (String.append_right_inj "MOVE_TYPES_").1 h] at hname
      exact hspelled other hother hname
    cases movetype with
    | Plain other => rw [(String.append_right_inj "MOVE_TYPES_").1 heq]
    | Unspecified => exact absurd heq (hnot "UNSPECIFIED" (by simp))
    | Vector => exact absurd heq (hnot "VECTOR" (by simp))
    | Struct => exact absurd heq (hnot "STRUCT" (by simp))
    | GenericTypeParam => exact absurd heq (hnot "GENERIC_TYPE_PARAM" (by simp))
    | Reference => exact absurd heq (hnot "REFERENCE" (by simp))
    | Unparsable => exact absurd heq (hnot "UNPARSABLE" (by simp))
  notIndex := by
    have hhead : ["BOOL", "U64", "ADDRESS", "SIGNER"].all (·.toList.head? != some 'T') = true := by
      decide
    rintro name hname index rfl
    have hnot := List.all_eq_true.1 hhead _ hname
    rw [String.toList_append] at hnot
    exact absurd hnot (by simp)

/-- A mutable reference to a vector of coins at an address that is written in some way. -/
def sampleCoins (address : String) : Input.MoveType :=
  .mk (.known .Reference) (some (.Reference true (some (.mk (.known .Vector) (some (.Vector
    (.mk (.known .Struct) (some (.Struct (.mk address "coin" "Coin"
      [.mk (.known (.Plain "U64")) none,
        .mk (.known .GenericTypeParam) (some (.GenericTypeParamIndex 0))]))))))))))

/-- Two ways to write the address 1 give the same text, and differ in that only. -/
theorem eq_of_tryEncode_eq_sampleCoins :
    padAddresses (sampleCoins "0x1") = padAddresses (sampleCoins "0001") := by
  have hident : ∀ name ∈ ["coin", "Coin"], IsIdentifier name := by
    intro name hname
    simp only [List.mem_cons, List.not_mem_nil, or_false] at hname
    rcases hname with rfl | rfl
    · exact ⟨List.all_eq_true.1 (by decide), by simp, by decide⟩
    · exact ⟨List.all_eq_true.1 (by decide), by simp, by decide⟩
  have hplain : WellNamed sampleNames (.mk (.known (.Plain "U64")) none) := by
    refine .bare fun name hname => ?_
    obtain rfl := MoveTypes.Plain.inj (EnumField.known.inj hname)
    simp [sampleNames]
  have hnamed : ∀ address, WellNamed sampleNames (sampleCoins address) := fun address =>
    .reference (.vector (.struct (hident _ (by simp)) (hident _ (by simp))
      (List.forall_mem_cons.2 ⟨hplain, List.forall_mem_singleton.2 .genericTypeParam⟩)))
  have hencoded : ∀ address encoded, Address.tryFixString address = .ok encoded →
      (MoveType.tryFrom (sampleCoins address)).bind (MoveType.tryEncode sampleCrates) =
        .ok ("&mut " ++ ("Vector<" ++ (encoded ++ "::" ++ "coin" ++ "::" ++ "Coin" ++
          encodeTypeArguments ["U64", "T" ++ toString (0 : UInt32)]) ++ ">")) := by
    intro address encoded hfixed
    have hu64 : encodeMoveType sampleCrates (.mk (.known (.Plain "U64")) none) = .ok "U64" :=
      encodeMoveType_bare.trans (encodePlain_eq_ok.2 (.inr (.inr rfl)))
    have hindex : encodeMoveType sampleCrates (.mk (.known .GenericTypeParam)
        (some (.GenericTypeParamIndex 0))) = .ok ("T" ++ toString (0 : UInt32)) :=
      encodeMoveType_content.trans (encodeContent_genericTypeParamIndex_eq_ok.2 ⟨rfl, rfl⟩)
    have htag := (@encodeStructTag_eq_ok sampleCrates address "coin" "Coin" _ _).2
      ⟨encoded, _, hfixed, Outcome.tryMap_eq_ok.2 (.cons hu64 (.cons hindex .nil)), rfl⟩
    have hstruct := encodeMoveType_content.trans (encodeContent_struct_eq_ok.2 ⟨rfl, htag⟩)
    have hvector := encodeMoveType_content.trans
      (encodeContent_vector_eq_ok.2 ⟨rfl, _, hstruct, rfl⟩)
    rw [MoveType.tryFrom_bind_tryEncode, sampleCoins, encodeMoveType_content]
    exact encodeContent_reference_eq_ok.2 ⟨rfl, _, _, rfl, hvector, rfl⟩
  have hone : Address.tryFixString "0x1" =
      .ok (String.ofList (Address.addressPrefix ++ (List.replicate 63 '0' ++ ['1']))) := by
    decide +kernel
  have hzeros : Address.tryFixString "0001" =
      .ok (String.ofList (Address.addressPrefix ++ (List.replicate 63 '0' ++ ['1']))) := by
    decide +kernel
  exact eq_of_tryEncode_eq enumNames_sampleNames (hnamed _) (hnamed _) (hencoded _ _ hone)
    (hencoded _ _ hzeros)

end AptosEtl.Reps
