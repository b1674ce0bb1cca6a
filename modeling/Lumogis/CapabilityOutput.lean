import Lumogis.Lib.CompactJson
import Lumogis.Lib.Dict

/-!
# CapabilityOutput

`validate_output`: what a tool returns is validated against the schema that the tool declares, with a
validator that is cached under the hash of the schema's canonical text. The cache never serves another
schema's validator (`CacheSound`). Whether there is a validation at all is decided by a list of keywords,
so a schema without one of them is not enforced: a call does what the schema asks if and only if the
schema has a listed keyword, is a bare type, or happens to be met (`validate_output_enforces_iff`).
-/

namespace Lumogis

open Json

/-- A JSON value as `json.loads` returns it. -/
abbrev PyJson := Json.Value DecodedNumber DecodedStr

/-- A schema is a dict. -/
abbrev OutputSchema := List (DecodedStr × PyJson)

/-! ## jsonschema -/

inductive PathPart where
  | key (k : DecodedStr)
  | index (i : Nat)

structure ValidationError where
  path : List PathPart
  message : Str

/-- What is used of the package. A schema is malformed, or an output invalid, whatever the order of the
members of an object. -/
structure JsonSchemaLib where
  /-- The message of the `SchemaError` that `check_schema` raises. -/
  checkSchema : OutputSchema → Option Str
  /-- `iter_errors`. -/
  iterErrors : OutputSchema → PyJson → List ValidationError
  checkSchema_order : ∀ s s' : OutputSchema, (Value.obj s).sortKeys DecodedStr.le = (Value.obj s').sortKeys DecodedStr.le →
    (checkSchema s).isSome = (checkSchema s').isSome
  iterErrors_order : ∀ s s' : OutputSchema, (Value.obj s).sortKeys DecodedStr.le = (Value.obj s').sortKeys DecodedStr.le →
    ∀ output, (iterErrors s output).isEmpty = (iterErrors s' output).isEmpty

/-! ## The code -/

def constrainingKeys : List Str :=
  ["properties", "required", "items", "enum", "const", "additionalProperties", "minimum", "maximum",
    "exclusiveMinimum", "exclusiveMaximum", "pattern", "format", "minItems", "maxItems", "minLength",
    "maxLength", "anyOf", "allOf", "oneOf", "not"].map Str.ofString

def isTrivialSchema (outputSchema : Option OutputSchema) : Bool :=
  match outputSchema with
  | none => true
  | some schema => schema.isEmpty || !schema.any fun member => constrainingKeys.contains member.1.points

/-- `_canonical`. -/
def canonicalSchema (schema : OutputSchema) : List Char :=
  canonical DecodedStr.le DecodedNumber.text DecodedStr.quote (.obj schema)

section
variable {Digest : Type} [DecidableEq Digest] (jsonschema : JsonSchemaLib) (sha256 : List Char → Digest)

/-- `_VALIDATOR_CACHE`; a validator is the schema that it was compiled from. -/
abbrev ValidatorCache (Digest : Type) := Dict Digest OutputSchema

/-- `_validator_for`: the message of a `SchemaError`, or the validator and the cache with it. -/
def validatorFor (cache : ValidatorCache Digest) (schema : OutputSchema) :
    Except Str (OutputSchema × ValidatorCache Digest) :=
  let key := sha256 (canonicalSchema schema)
  match cache.get? key with
  | some validator => .ok (validator, cache)
  | none =>
    match jsonschema.checkSchema schema with
    | some message => .error message
    | none => .ok (schema, cache.set key schema)

/-- Two errors at one depth are both in a list or both in a dict. -/
def PathPart.le : PathPart → PathPart → Bool
  | .index i, .index j => i ≤ j
  | .key k, .key l => k.le l
  | .index _, .key _ => true
  | .key _, .index _ => false

def pathLe : List PathPart → List PathPart → Bool
  | [], _ => true
  | _ :: _, [] => false
  | p :: ps, q :: qs => p.le q && (!q.le p || pathLe ps qs)

def PathPart.text : PathPart → Str
  | .key k => k.points
  | .index i => Str.ofString (toString i)

def location (path : List PathPart) : Str :=
  let joined := (Str.ofString "/").intercalate (path.map PathPart.text)
  if joined = [] then Str.ofString "<root>" else joined

/-- `validate_output`: the message of an `OutputSchemaError` or nothing, and the cache. -/
def validateOutput (cache : ValidatorCache Digest) (output : PyJson) (outputSchema : Option OutputSchema) :
    Option Str × ValidatorCache Digest :=
  if isTrivialSchema outputSchema then (none, cache)
  else
    let schema := outputSchema.getD []
    match validatorFor jsonschema sha256 cache schema with
    | .error message => (some (Str.ofString "invalid output_schema: " ++ message), cache)
    | .ok (validator, cache) =>
      match (jsonschema.iterErrors validator output).mergeSort fun e e' => pathLe e.path e'.path with
      | [] => (none, cache)
      | first :: _ =>
        (some (Str.ofString "output does not match schema at " ++ location first.path ++ Str.ofString ": " ++
          first.message), cache)

/-- The cache after the calls, one after the other. -/
def cacheAfter (calls : List (PyJson × Option OutputSchema)) : ValidatorCache Digest :=
  calls.foldl (fun cache call => (validateOutput jsonschema sha256 cache call.1 call.2).2) Dict.empty

end

/-! ## The cache -/

section
variable {Digest : Type} [DecidableEq Digest] {jsonschema : JsonSchemaLib} {sha256 : List Char → Digest}

/-- Each validator stands under the hash of its schema, which is well-formed. -/
def CacheSound (jsonschema : JsonSchemaLib) (sha256 : List Char → Digest) (cache : ValidatorCache Digest) : Prop :=
  ∀ key validator, cache.get? key = some validator →
    key = sha256 (canonicalSchema validator) ∧ jsonschema.checkSchema validator = none

theorem validatorFor_sound {cache cache' : ValidatorCache Digest} {schema validator : OutputSchema}
    (hsound : CacheSound jsonschema sha256 cache)
    (h : validatorFor jsonschema sha256 cache schema = .ok (validator, cache')) :
    CacheSound jsonschema sha256 cache' := by
  simp only [validatorFor] at h
  split at h
  · cases h
    exact hsound
  · split at h
    · cases h
    · rename_i hcheck
      cases h
      intro key other hget
      rw [Dict.get?_set] at hget
      split at hget
      · rename_i hkey
        cases hget
        exact ⟨hkey, hcheck⟩
      · exact hsound key other hget

theorem validateOutput_sound {cache : ValidatorCache Digest} (hsound : CacheSound jsonschema sha256 cache)
    (output : PyJson) (schema : Option OutputSchema) :
    CacheSound jsonschema sha256 (validateOutput jsonschema sha256 cache output schema).2 := by
  simp only [validateOutput]
  split
  · exact hsound
  · split
    · exact hsound
    · rename_i validator cache' hfor
      have hsound' := validatorFor_sound hsound hfor
      split <;> exact hsound'

theorem cacheAfter_sound (calls : List (PyJson × Option OutputSchema)) :
    CacheSound jsonschema sha256 (cacheAfter jsonschema sha256 calls) := by
  have hrun : ∀ cache, CacheSound jsonschema sha256 cache → CacheSound jsonschema sha256
      (calls.foldl (fun cache call => (validateOutput jsonschema sha256 cache call.1 call.2).2) cache) := by
    induction calls with
    | nil =>
      intro cache hsound
      exact hsound
    | cons call calls ih =>
      intro cache hsound
      exact ih _ (validateOutput_sound hsound call.1 call.2)
  refine hrun Dict.empty ?_
  intro key validator hget
  cases hget

/-! ## What a call enforces -/

/-- The schema is malformed or the output not valid under it. -/
def Rejects (jsonschema : JsonSchemaLib) (schema : OutputSchema) (output : PyJson) : Prop :=
  (jsonschema.checkSchema schema).isSome ∨ (jsonschema.iterErrors schema output).isEmpty = false

theorem canonicalSchema_same {s s' : OutputSchema} (h : canonicalSchema s = canonicalSchema s') :
    (Value.obj s).sortKeys DecodedStr.le = (Value.obj s').sortKeys DecodedStr.le :=
  canonical_inj DecodedStr.le decoded_tokens h

theorem validatorFor_rejects {cache : ValidatorCache Digest} (hinj : Function.Injective sha256)
    (hsound : CacheSound jsonschema sha256 cache) (schema : OutputSchema) (output : PyJson) :
    (∀ message, validatorFor jsonschema sha256 cache schema = .error message →
      (jsonschema.checkSchema schema).isSome) ∧
    ∀ validator cache', validatorFor jsonschema sha256 cache schema = .ok (validator, cache') →
      ((jsonschema.iterErrors validator output).isEmpty = false ↔ Rejects jsonschema schema output) := by
  have hself : (jsonschema.checkSchema schema).isSome = false →
      ((jsonschema.iterErrors schema output).isEmpty = false ↔ Rejects jsonschema schema output) := by
    intro hcheck
    simp [Rejects, hcheck]
  constructor
  · intro message h
    simp only [validatorFor] at h
    split at h
    · cases h
    · split at h
      · rename_i hcheck
        simp [hcheck]
      · cases h
  · intro validator cache' h
    simp only [validatorFor] at h
    split at h
    · rename_i cached hget
      cases h
      obtain ⟨hkey, hcheck⟩ := hsound _ _ hget
      have hsame := canonicalSchema_same (hinj hkey)
      have hwell := jsonschema.checkSchema_order _ _ hsame
      rw [hcheck] at hwell
      rw [← hself hwell, jsonschema.iterErrors_order _ _ hsame output]
    · split at h
      · cases h
      · rename_i hcheck
        cases h
        exact hself (by simp [hcheck])

theorem mergeSort_eq_nil_iff {errors : List ValidationError} {le : ValidationError → ValidationError → Bool} :
    errors.mergeSort le = [] ↔ errors.isEmpty = true := by
  rw [← List.length_eq_zero_iff, List.length_mergeSort, List.length_eq_zero_iff, List.isEmpty_iff]

theorem validateOutput_raises_iff {cache : ValidatorCache Digest} (hinj : Function.Injective sha256)
    (hsound : CacheSound jsonschema sha256 cache) (output : PyJson) (schema : Option OutputSchema) :
    (validateOutput jsonschema sha256 cache output schema).1.isSome ↔
      isTrivialSchema schema = false ∧ Rejects jsonschema (schema.getD []) output := by
  obtain ⟨herror, hok⟩ := validatorFor_rejects hinj hsound (schema.getD []) output
  simp only [validateOutput]
  cases htrivial : isTrivialSchema schema with
  | true => simp
  | false =>
    simp only [Bool.false_eq_true, if_false, true_and]
    split
    · rename_i message hfor
      exact iff_of_true rfl (.inl (herror message hfor))
    · rename_i validator cache' hfor
      rw [← hok validator cache' hfor]
      split
      · rename_i hsorted
        rw [mergeSort_eq_nil_iff] at hsorted
        simp [hsorted]
      · rename_i first rest hsorted
        have hne : ¬ (jsonschema.iterErrors validator output).isEmpty = true := by
          rw [← mergeSort_eq_nil_iff, hsorted]
          simp
        simpa using hne

end

/-! ## Enforcement -/

def typeNames : List Str :=
  ["array", "boolean", "integer", "null", "number", "object", "string"].map Str.ofString

/-- Nothing but a single type name, or nothing. -/
def IsBare : Option OutputSchema → Prop
  | none => True
  | some [] => True
  | some [(key, .str name)] => key.points = Str.ofString "type" ∧ name.points ∈ typeNames
  | some _ => False

theorem IsBare.trivial {schema : Option OutputSchema} (h : IsBare schema) : isTrivialSchema schema = true := by
  match schema, h with
  | none, _ => rfl
  | some [], _ => rfl
  | some [(key, .str name)], h =>
    have htype : constrainingKeys.contains (Str.ofString "type") = false := by decide
    simp only [isTrivialSchema, List.any_cons, List.any_nil, h.1, htype]
    rfl

/-- The call raises if the schema says more than a type and rejects the output, and in no other case. -/
def Enforces {Digest : Type} [DecidableEq Digest] (jsonschema : JsonSchemaLib) (sha256 : List Char → Digest)
    (cache : ValidatorCache Digest) (output : PyJson) (schema : Option OutputSchema) : Prop :=
  (validateOutput jsonschema sha256 cache output schema).1.isSome ↔
    ¬ IsBare schema ∧ Rejects jsonschema (schema.getD []) output

/-- After any calls, the next one enforces its schema if and only if the schema has a listed keyword, is
bare, or is met. -/
theorem validate_output_enforces_iff {Digest : Type} [DecidableEq Digest] (jsonschema : JsonSchemaLib)
    (sha256 : List Char → Digest) (hinj : Function.Injective sha256)
    (calls : List (PyJson × Option OutputSchema)) (output : PyJson) (schema : Option OutputSchema) :
    Enforces jsonschema sha256 (cacheAfter jsonschema sha256 calls) output schema ↔
      isTrivialSchema schema = false ∨ IsBare schema ∨ ¬ Rejects jsonschema (schema.getD []) output := by
  rw [Enforces, validateOutput_raises_iff hinj (cacheAfter_sound calls)]
  cases htrivial : isTrivialSchema schema with
  | true => simp [or_iff_not_imp_left]
  | false =>
    have hbare : ¬ IsBare schema := by
      intro h
      rw [h.trivial] at htrivial
      cases htrivial
    simp [hbare]

/-! ### A keyword that is not listed -/

/-- Two equal items. -/
def repeatsItem : PyJson → Bool
  | .arr [.bool a, .bool b] => a == b
  | _ => false

/-- The package on a schema that asks for unique items. -/
def uniqueItemsLib : JsonSchemaLib where
  checkSchema := fun _ => none
  iterErrors := fun schema output =>
    match (Value.obj schema).sortKeys DecodedStr.le with
    | .obj [(key, .bool true)] =>
      if key.points = Str.ofString "uniqueItems" ∧ repeatsItem output then
        [⟨[], Str.ofString "[True, True] has non-unique elements"⟩]
      else []
    | _ => []
  checkSchema_order := fun _ _ _ => rfl
  iterErrors_order := by
    intro s s' h output
    rw [h]

def uniqueItemsSchema : OutputSchema := [(.ofString "uniqueItems", .bool true)]

theorem validate_output_enforces_iff_unique :
    Enforces uniqueItemsLib id (cacheAfter uniqueItemsLib id []) (.arr [.bool true]) (some uniqueItemsSchema) ↔
      isTrivialSchema (some uniqueItemsSchema) = false ∨ IsBare (some uniqueItemsSchema) ∨
        ¬ Rejects uniqueItemsLib uniqueItemsSchema (.arr [.bool true]) :=
  validate_output_enforces_iff uniqueItemsLib id Function.injective_id [] _ _

/-- `[true, true]` passes the schema `{"uniqueItems": true}`. -/
theorem unique_items_not_enforced : ¬ ∀ (jsonschema : JsonSchemaLib) (sha256 : List Char → List Char),
    Function.Injective sha256 → ∀ (calls : List (PyJson × Option OutputSchema)) (output : PyJson)
      (schema : Option OutputSchema),
      Enforces jsonschema sha256 (cacheAfter jsonschema sha256 calls) output schema := by
  intro h
  have hraises := (h uniqueItemsLib id Function.injective_id [] (.arr [.bool true, .bool true])
    (some uniqueItemsSchema)).mpr
  have hsorted : (Value.obj uniqueItemsSchema).sortKeys DecodedStr.le = .obj uniqueItemsSchema := by
    simp [uniqueItemsSchema, Value.sortKeys, sortMembers]
  have hrejects : Rejects uniqueItemsLib uniqueItemsSchema (.arr [.bool true, .bool true]) := by
    right
    simp only [uniqueItemsLib, hsorted]
    rfl
  have hnone := hraises ⟨fun hbare => hbare, hrejects⟩
  cases hnone

end Lumogis
