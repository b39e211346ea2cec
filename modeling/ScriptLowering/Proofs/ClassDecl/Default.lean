import ScriptLowering.Proofs.ClassDecl.MethodForm
import ScriptLowering.Proofs.Literal.StringPayload

/-!
# Default values of properties

A string that is the default value of a property arrives in a descriptor as the payload of a
constant does, and leaves as a literal. The central theorem follows it through a whole class: one
more property of this kind is one more line in lowered code, and changes nothing else. The empty
string is the exception. Its payload is empty as well, which counts as absent.
-/

namespace ScriptLowering

namespace Except

variable {ε α β γ : Type} {result : Except ε α}

theorem map_bind {next : α → Except ε β} {view : β → γ} :
    (result >>= next).map view = result >>= fun value => (next value).map view := by
  cases result <;> rfl

theorem bind_map {view : α → β} {next : β → Except ε γ} :
    result.map view >>= next = result >>= fun value => next (view value) := by
  cases result <;> rfl

/-- One more item that can be converted is one more value at its place. -/
theorem mapM_insertIdx {convert : α → Except ε β} {item : α} {value : β}
    (converted : convert item = .ok value) (position : Nat) (list : List α) :
    (list.insertIdx position item).mapM convert =
      (list.mapM convert).map (·.insertIdx position value) := by
  induction position generalizing list with
  | zero =>
      rw [List.insertIdx_zero, List.mapM_cons, converted]
      cases list.mapM convert <;> rfl
  | succ position induction =>
      cases list with
      | nil => rfl
      | cons head rest =>
          rw [List.insertIdx_succ_cons, List.mapM_cons, List.mapM_cons, induction]
          cases convert head with
          | error failure => rfl
          | ok first => cases rest.mapM convert <;> rfl

end Except

theorem Script.property_renderText (modifiers name value : String) :
    property modifiers name (some (Literal.renderText value)) =
      modifiers ++ " $" ++ name ++
        (" = '" ++ String.ofList (Quoted.escape value.toList) ++ "'") ++ ";\n" := by
  apply String.toList_injective
  simp [property, Literal.renderText, Quoted.quote]

namespace Property

/-- The tuple of a property with a string for its default value. -/
def stringTuple (doc : Json) (name : String) (visibility : Visibility) (flag : Json)
    (value : String) : Json :=
  .array [doc, .string name, .string visibility.keyword, flag, .string "string",
    .string (Payload.ofString value)]

/-- The flag of static properties, and what it adds to the modifiers. It is set by its keyword or by
the value true, and by nothing else. -/
inductive StaticFlag : Json → String → Prop where
  | keyword : StaticFlag (.string "static") " static"
  | yes : StaticFlag (.bool true) " static"
  | unset {flag : Json} (no_keyword : flag ≠ .string "static") (not_true : flag ≠ .bool true) :
      StaticFlag flag ""

/-- The line of a property with a string for its default value. The empty string leaves none. -/
def stringLine (name : String) (visibility : Visibility) (staticText value : String) : String :=
  visibility.keyword ++ staticText ++ " $" ++ name ++
    (if value = "" then "" else " = '" ++ String.ofList (Quoted.escape value.toList) ++ "'") ++
    ";\n"

/-- The property with a string for its default value. -/
def ofStringTuple (doc : Json) (name : String) (visibility : Visibility) (flag : Json)
    (value : String) : Property where
  doc := optional? (some doc)
  name
  visibility
  isStatic := Modifiers.isSet (some flag) "static"
  type := "string"
  value := if value = "" then none else some (Payload.ofString value)

variable {flag : Json} {staticText : String}

theorem StaticFlag.text_eq (static : StaticFlag flag staticText) :
    (if Modifiers.isSet (some flag) "static" then " static" else "") = staticText := by
  cases static with
  | keyword | yes => rfl
  | unset no_keyword not_true =>
      rw [Modifiers.isSet.eq_def]
      split
      · rename_i text flag_eq
        have other : text ≠ "static" := by
          rintro rfl
          exact no_keyword (Option.some.inj flag_eq)
        simp [other]
      · rename_i value flag_eq
        cases value with
        | true => exact absurd (Option.some.inj flag_eq) not_true
        | false => rfl
      · rfl

/-- Only the empty string has an empty payload. -/
@[simp]
theorem ofString_eq_empty {value : String} : Payload.ofString value = "" ↔ value = "" := by
  have empty : Payload.ofString "" = "" := rfl
  constructor
  · intro payload_eq
    have read := Payload.readString_ofString value
    rw [payload_eq, ← empty, Payload.readString_ofString] at read
    exact (Except.ok.inj read).symm
  · rintro rfl
    exact empty

@[simp]
theorem optional?_ofString (value : String) :
    optional? (some (.string (Payload.ofString value))) =
      if value = "" then none else some (Payload.ofString value) := by
  simp [optional?, String.isEmpty_iff]

theorem decode_stringTuple (doc : Json) (name : String) (visibility : Visibility) (flag : Json)
    (value : String) :
    decode (stringTuple doc name visibility flag value) =
      .ok (ofStringTuple doc name visibility flag value) := by
  rw [ofStringTuple, ← optional?_ofString]
  cases visibility <;> rfl

theorem lower_ofStringTuple (static : StaticFlag flag staticText) (doc : Json) (name : String)
    (visibility : Visibility) (value : String) :
    (ofStringTuple doc name visibility flag value).lower =
      .ok (stringLine name visibility staticText value) := by
  have modifiers_eq : (ofStringTuple doc name visibility flag value).modifiers.render =
      visibility.keyword ++ staticText := by
    rw [Modifiers.render, ← static.text_eq]
    exact String.append_empty
  rw [lower, modifiers_eq, renderValue, stringLine]
  by_cases empty : value = ""
  · simp [ofStringTuple, empty, Script.property, pure, Except.pure, bind, Except.bind]
  · simp [ofStringTuple, empty, bind, Except.bind, pure, Except.pure, Script.property_renderText]

end Property

namespace ClassDecl

/-- The class with one more property at a position. -/
def insertProperty (decl : ClassDecl) (position : Nat) (property : Property) : ClassDecl :=
  { decl with properties := decl.properties.insertIdx position property }

variable {fields others : List (String × Json)} {items : List Json} {tuple : Json}
  {property : Property} {position : Nat}

@[simp]
theorem members_bind {α : Type} (sort : String) (items : List Json)
    (next : List Json → Except Failure α) :
    members sort (some (.array items)) >>= next = next items :=
  rfl

/-- A descriptor that lists one more tuple stands for the class with one more property. -/
theorem decode_insertProperty (decoded : Property.decode tuple = .ok property)
    (same : ∀ key, key ≠ "properties" → fields.lookup key = others.lookup key)
    (listed : fields.lookup "properties" = some (.array (items.insertIdx position tuple)))
    (unlisted : others.lookup "properties" = some (.array items)) :
    decode (.object fields) =
      (decode (.object others)).map (·.insertProperty position property) := by
  rw [decode, decode, same "name" (by simp), same "extends" (by simp),
    same "implements" (by simp), same "methods" (by simp), listed, unlisted]
  -- Both descriptors are read in the same order, and the class is put together at the very end.
  split
  · simp only [members_bind, Except.map_bind, Except.mapM_insertIdx decoded, Except.bind_map]
    rfl
  · rfl

end ClassDecl

namespace Compiler

variable {property : Property} {line : String}

theorem lowerClass_insertProperty (lowered : property.lower = .ok line) (compiler : Compiler)
    (decl : ClassDecl) (position : Nat) :
    compiler.lowerClass (decl.insertProperty position property) =
      match decl.properties.mapM Property.lower with
      | .error failure => (.error failure, compiler)
      | .ok lines =>
          ((compiler.lowerMethods decl.methods).1.map fun texts =>
              Script.classOf decl.name decl.parent decl.interfaces
                (String.join (lines.insertIdx position line ++ texts)),
            (compiler.lowerMethods decl.methods).2) := by
  rw [lowerClass_eq, ClassDecl.insertProperty, Except.mapM_insertIdx lowered]
  cases decl.properties.mapM Property.lower <;> rfl

/-- A property whose default value is a string can stand at any place of any descriptor, and the
class is accepted exactly if it is accepted without it. In lowered code its line stands at the same
place among those of the properties, and everything else is as it is without it: failures, methods
and what is remembered of them. The line shows the string between quotes, unless the string is
empty. -/
theorem string_defaults_survive {flag doc : Json} {staticText : String}
    (static : Property.StaticFlag flag staticText) (name : String) (visibility : Visibility)
    (value : String) (position : Nat) {fields others : List (String × Json)} {items : List Json}
    (same : ∀ key, key ≠ "properties" → fields.lookup key = others.lookup key)
    (inside : position ≤ items.length)
    (listed : fields.lookup "properties" = some (.array
      (items.insertIdx position (Property.stringTuple doc name visibility flag value))))
    (unlisted : others.lookup "properties" = some (.array items)) :
    ∃ property, ClassDecl.decode (.object fields) =
        (ClassDecl.decode (.object others)).map (·.insertProperty position property) ∧
      ∀ (compiler : Compiler) (decl : ClassDecl), ClassDecl.decode (.object others) = .ok decl →
        position ≤ decl.properties.length ∧
        (∀ failure, (compiler.lowerClass decl).1 = .error failure →
          compiler.lowerClass (decl.insertProperty position property) =
            compiler.lowerClass decl) ∧
        ∀ lines texts, decl.properties.mapM Property.lower = .ok lines →
          (compiler.lowerMethods decl.methods).1 = .ok texts →
          (compiler.lowerClass (decl.insertProperty position property)).1 =
            .ok (Script.classOf decl.name decl.parent decl.interfaces (String.join
              (lines.insertIdx position
                (Property.stringLine name visibility staticText value) ++ texts))) ∧
          (compiler.lowerClass (decl.insertProperty position property)).2 =
            (compiler.lowerClass decl).2 := by
  have decoded := Property.decode_stringTuple doc name visibility flag value
  have lowered := Property.lower_ofStringTuple static doc name visibility value
  refine ⟨_, ClassDecl.decode_insertProperty decoded same listed unlisted, ?_⟩
  intro compiler decl read
  rw [lowerClass_insertProperty lowered, lowerClass_eq]
  refine ⟨?_, ?_, ?_⟩
  · have length_eq := (ClassDecl.listed_of_decode read).1.length_eq
    rw [Json.listAt, Json.get?, unlisted] at length_eq
    exact length_eq ▸ inside
  · intro failure failed
    cases lines_eq : decl.properties.mapM Property.lower with
    | error reported => rfl
    | ok lines =>
        rw [lines_eq] at failed
        cases texts_eq : (compiler.lowerMethods decl.methods).1 with
        | error reported => rfl
        | ok texts =>
            dsimp only at failed
            rw [texts_eq] at failed
            cases failed
  · intro lines texts lines_eq texts_eq
    rw [lines_eq]
    dsimp only
    rw [texts_eq]
    exact ⟨rfl, rfl⟩

/-- The descriptor of a class with some properties. -/
def classFields (properties : List Json) : List (String × Json) :=
  [("name", .string "C"), ("properties", .array properties)]

/-- The tuple of a property with an integer for its default value. -/
def countTuple : Json :=
  .array [.null, .string "n", .string "public", .null, .string "long", .number (.integer 7)]

theorem lookup_classFields (left right : List Json) {key : String} (other : key ≠ "properties") :
    (classFields left).lookup key = (classFields right).lookup key := by
  simp [classFields, List.lookup_cons, beq_false_of_ne other]

theorem greeting_default_survives :
    ∃ decl, ClassDecl.decode (.object (classFields
        [countTuple, Property.stringTuple .null "x" .prot (.bool true) "it's"])) = .ok decl ∧
      (({} : Compiler).lowerClass decl).1 =
        .ok ("class C " ++
          Script.braced "\npublic $n = 7;\nprotected static $x = 'it\\'s';\n\n") := by
  obtain ⟨property, decoded, lowers⟩ := string_defaults_survive .yes "x" .prot "it's" 1
    (fun _ => lookup_classFields _ _) (Nat.le_refl [countTuple].length) rfl rfl
  have plain : ClassDecl.decode (.object (classFields [countTuple])) =
      .ok ⟨"C", none, [], [⟨none, "n", .pub, false, "long", some "7"⟩], []⟩ := by decide +kernel
  obtain ⟨-, -, lowered⟩ := lowers {} _ plain
  rw [plain] at decoded
  refine ⟨_, decoded, ?_⟩
  rw [(lowered ["public $n = 7;\n"] [] rfl rfl).1]
  decide +kernel

/-- The empty string as a default value leaves no trace in lowered code. -/
theorem empty_default_vanishes :
    ∃ decl, ClassDecl.decode (.object (classFields
        [Property.stringTuple .null "x" .pub (.string "") ""])) = .ok decl ∧
      (({} : Compiler).lowerClass decl).1 =
        .ok ("class C " ++ Script.braced "\npublic $x;\n\n") ∧
      (({} : Compiler).lowerClass decl).1 ≠
        .ok ("class C " ++ Script.braced "\npublic $x = '';\n\n") := by
  refine ⟨⟨"C", none, [], [⟨none, "x", .pub, false, "string", none⟩], []⟩, ?_, ?_, ?_⟩
  all_goals decide +kernel

end Compiler

end ScriptLowering
