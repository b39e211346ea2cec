import ScriptLowering.Proofs.Callable.FirstFault
import ScriptLowering.Proofs.ClassDecl.Effect
import ScriptLowering.Proofs.Session.Transparency

/-!
# Methods are functions

A method in a class descriptor has a header of its own, with modifiers in front of its name. Behind
the header it is read as any callable in tuple form is, with the same failures at the same items,
and it breaks off as that does when its header declares more parameters than there is room for.
If the names of the methods of a class differ, the code of each one is moreover that of a function
with its name and its items, lowered by itself: nothing passes from one method to the next.
-/

namespace ScriptLowering

/-- The tuple form of a callable with a kind, a name, a count of parameters and further items. -/
def Callable.form (kind : CallableKind) (name : String) (declared : Nat) (items : List Json) :
    Json :=
  .array (.array [.string kind.tag, .string name, .ofNat declared] :: items)

/-- The kind has no say in how parameters are read. -/
theorem Opening.ofItems_kind (kind other : CallableKind) (name : String) (declared : Nat)
    (params : List Variable) (index : Nat) (items : List Json) :
    ofItems other name declared params index items =
      (ofItems kind name declared params index items).map fun opening =>
        { opening with header := { opening.header with kind := other } } := by
  induction items generalizing params index with
  | nil => rfl
  | cons item rest induction =>
      rw [ofItems, ofItems]
      cases Tuple.ofItem index item with
      | error failure => rfl
      | ok tuple =>
          cases read : tuple.text 0 with
          | error failure => simp only [bind, Except.bind, read, Except.map]
          | ok tag =>
              simp only [bind, Except.bind, read]
              split
              · split <;> rfl
              · cases tuple.variableAt 1 with
                | error failure => rfl
                | ok param => exact induction (params ++ [param]) (index + 1)
              · rfl

theorem Opening.afterHeader_kind (kind other : CallableKind) (name : String) (declared : Nat)
    (items : List Json) :
    afterHeader other name declared items =
      (afterHeader kind name declared items).map fun opening =>
        { opening with header := { opening.header with kind := other } } := by
  rw [afterHeader, afterHeader, ofItems_kind kind other]
  cases ofItems kind name declared [] 1 items <;> rfl

namespace Callable

open Grammar

variable {name : String} {declared : Nat} {items : List Json}

@[simp]
theorem openTuples_form (kind : CallableKind) :
    openTuples (form kind name declared items) =
      Opening.afterHeader kind name declared items := by
  cases kind <;> rfl

/-- There is room for as many parameters as the capacity says. -/
theorem decode_form_ne_overflow (kind : CallableKind) (room : declared ≤ Opening.capacity) :
    decode (form kind name declared items) ≠ .error .overflow := by
  intro failed
  obtain ⟨_, header_item, beyond⟩ := overdeclared_of_overflow failed
  have read := readHeader_of_headerItem header_item
  rw [readHeader_of_headerItem (.mk kind name declared [])] at read
  cases read
  exact Nat.not_le_of_lt beyond room

theorem decode_form_of_beyond (kind : CallableKind) (beyond : Opening.capacity < declared)
    (fewer : items.length < declared) :
    decode (form kind name declared items) = .error .overflow :=
  decode_of_beyond (.mk kind name declared []) beyond fewer

/-- A function is read as a method of the same items is, apart from the kind. -/
theorem decode_form_function :
    decode (form .function name declared items) =
      (decode (form .method name declared items)).map toFunction := by
  rw [decode, decode, openTuples_form, openTuples_form, Opening.afterHeader_kind .method .function]
  cases Opening.afterHeader .method name declared items with
  | error failure => rfl
  | ok opening =>
      simp only [bind, Except.bind, Except.map, Opening.decode, Opening.instrs]
      cases Instr.collect false (Instr.ofItems opening.bodyStart opening.items) <;> rfl

end Callable

@[simp]
theorem Visibility.ofKeyword_keyword (visibility : Visibility) :
    ofKeyword visibility.keyword = .ok visibility := by
  cases visibility <;> rfl

theorem Visibility.keyword_of_ofKeyword {keyword : String} {visibility : Visibility}
    (read : ofKeyword keyword = .ok visibility) : keyword = visibility.keyword := by
  rw [ofKeyword, ofKeyword?.eq_def] at read
  split at read <;> rename_i found
  · split at found <;> cases found <;> cases read <;> rfl
  · cases read

/-- The modifiers in the header of a method with a visibility: a flag is set by its keyword or by
the value true. -/
def Modifiers.ofFields (visibility : Visibility) (fields : List Json) : Modifiers where
  visibility := visibility
  isStatic := isSet fields[2]? "static"
  isFinal := isSet fields[3]? "final"

namespace Method

/-- The fields of a header declare a method: its visibility, its name and the count of its
parameters stand in their places. -/
structure Declares (fields : List Json) (visibility : Visibility) (name : String)
    (declared : Nat) : Prop where
  visibility_at : fields[1]? = some (.string visibility.keyword)
  name_at : fields[4]? = some (.string name)
  count_at : fields[5]? = some (.ofNat declared)

variable {fields items : List Json} {visibility : Visibility} {name : String} {declared : Nat}
  {method : Method}

/-- Behind a header that declares a method, reading it is reading the callable. -/
theorem decode_of_declares (declares : Declares fields visibility name declared)
    (items : List Json) :
    decode (.array (.array fields :: items)) =
      (Callable.decode (Callable.form .method name declared items)).map
        (Method.mk (.ofFields visibility fields)) := by
  have visibility_read : Tuple.text ⟨0, fields⟩ 1 = .ok visibility.keyword :=
    Tuple.text_eq_ok_iff.mpr declares.visibility_at
  have name_read : Tuple.text ⟨0, fields⟩ 4 = .ok name :=
    Tuple.text_eq_ok_iff.mpr declares.name_at
  have count_read : Tuple.count ⟨0, fields⟩ 5 = .ok declared :=
    Tuple.count_eq_ok_iff.mpr declares.count_at
  have modifiers_read : decodeModifiers ⟨0, fields⟩ = .ok (.ofFields visibility fields) := by
    simp only [decodeModifiers, visibility_read, bind, Except.bind, visibility.ofKeyword_keyword]
    rfl
  rw [Callable.decode, Callable.openTuples_form]
  simp only [decode, modifiers_read, name_read, count_read, bind, Except.bind]
  cases Opening.afterHeader .method name declared items with
  | error failure => rfl
  | ok opening =>
      dsimp only
      cases opening.decode <;> rfl

/-- A method that can be read has a header that declares it. -/
theorem exists_declares_of_decode {value : Json} (decoded : decode value = .ok method) :
    ∃ fields items visibility declared, value = .array (.array fields :: items) ∧
      Declares fields visibility method.name declared ∧
      method.modifiers = .ofFields visibility fields ∧
      Callable.decode (Callable.form .method method.name declared items) =
        .ok method.callable := by
  rw [decode.eq_def] at decoded
  split at decoded
  · rename_i fields items
    obtain ⟨modifiers, modifiers_read, decoded⟩ := Except.bind_eq_ok.mp decoded
    obtain ⟨name, name_read, decoded⟩ := Except.bind_eq_ok.mp decoded
    obtain ⟨declared, count_read, decoded⟩ := Except.bind_eq_ok.mp decoded
    obtain ⟨opening, opened, decoded⟩ := Except.bind_eq_ok.mp decoded
    obtain ⟨callable, callable_read, ⟨⟩⟩ := Except.bind_eq_ok.mp decoded
    obtain ⟨keyword, keyword_read, modifiers_read⟩ := Except.bind_eq_ok.mp modifiers_read
    obtain ⟨visibility, visibility_read, ⟨⟩⟩ := Except.bind_eq_ok.mp modifiers_read
    obtain rfl := Visibility.keyword_of_ofKeyword visibility_read
    obtain rfl : callable.name = name := by
      rw [(Opening.decode_eq_ok.mp callable_read).1.symm]
      exact Opening.name_of_ofItems (Opening.afterHeader_eq_ok.mp opened)
    refine ⟨fields, items, visibility, declared, rfl,
      ⟨Tuple.text_eq_ok_iff.mp keyword_read, Tuple.text_eq_ok_iff.mp name_read,
        Tuple.count_eq_ok_iff.mp count_read⟩, rfl, ?_⟩
    rw [Callable.decode, Callable.openTuples_form]
    exact Except.bind_eq_ok.mpr ⟨opening, opened, callable_read⟩
  · cases decoded
  · cases decoded

end Method

/-- The items of a list in an object. A list that is absent has none. -/
def Json.listAt (value : Json) (key : String) : List Json :=
  ((value.get? key).bind items?).getD []

namespace ClassDecl

theorem members_eq_ok {sort : String} {field : Option Json} {items : List Json}
    (read : members sort field = .ok items) : (field.bind Json.items?).getD [] = items := by
  rw [members.eq_def] at read
  split at read <;> cases read <;> rfl

/-- A class has the properties and the methods that are listed in its descriptor, in order. -/
theorem listed_of_decode {value : Json} {decl : ClassDecl} (decoded : decode value = .ok decl) :
    List.Forall₂ (fun item property => Property.decode item = .ok property)
        (value.listAt "properties") decl.properties ∧
      List.Forall₂ (fun item method => Method.decode item = .ok method)
        (value.listAt "methods") decl.methods := by
  rw [decode.eq_def] at decoded
  split at decoded
  · split at decoded
    · obtain ⟨parent, -, decoded⟩ := Except.bind_eq_ok.mp decoded
      obtain ⟨interfaces, -, decoded⟩ := Except.bind_eq_ok.mp decoded
      obtain ⟨propertyItems, property_items, decoded⟩ := Except.bind_eq_ok.mp decoded
      obtain ⟨properties, properties_read, decoded⟩ := Except.bind_eq_ok.mp decoded
      obtain ⟨methodItems, method_items, decoded⟩ := Except.bind_eq_ok.mp decoded
      obtain ⟨methods, methods_read, ⟨⟩⟩ := Except.bind_eq_ok.mp decoded
      rw [← members_eq_ok property_items] at properties_read
      rw [← members_eq_ok method_items] at methods_read
      exact ⟨Except.mapM_eq_ok.mp properties_read, Except.mapM_eq_ok.mp methods_read⟩
    · cases decoded
  · cases decoded

end ClassDecl

namespace Compiler

variable {compiler : Compiler} {methods : List Method} {texts : List String}

/-- Methods of new and different names are lowered each by itself. -/
theorem lowerMethods_of_distinct (distinct : (methods.map Method.name).Nodup)
    (uncached : ∀ method ∈ methods, compiler.cache.get? method.name = none)
    (lowered : (compiler.lowerMethods methods).1 = .ok texts) :
    List.Forall₂ (fun method text => ∃ code,
      method.callable.lower compiler.naming = .ok code ∧ text = method.text code)
      methods texts := by
  induction methods generalizing compiler texts with
  | nil => cases lowered; exact .nil
  | cons method rest induction =>
      obtain ⟨new, distinct⟩ := List.nodup_cons.mp distinct
      have method_uncached := uncached method List.mem_cons_self
      rcases compiler.lowerMethods_cons method rest with
        ⟨failure, next, -, stopped, -⟩ | ⟨code, next, step, continued, -⟩
      · rw [stopped] at lowered
        cases lowered
      · rw [lower_of_uncached method_uncached] at step
        have own : method.callable.lower compiler.naming = .ok code := by
          rw [← compiler.remember_fst method.callable.name (method.callable.lower _), step]
        rw [own] at step
        obtain rfl := (Prod.mk.inj step).2
        -- What the method left in the cache stands under its own name only.
        have rest_uncached : ∀ later ∈ rest,
            (compiler.cache.insert method.name code).get? later.name = none := by
          intro later listed
          rw [Option.eq_none_iff_forall_ne_some]
          intro held stands
          rcases Cache.of_get?_insert stands with ⟨same, -⟩ | stood
          · exact new (List.mem_map.mpr ⟨later, listed, same⟩)
          · cases stood.symm.trans (uncached later (List.mem_cons_of_mem _ listed))
        rw [continued] at lowered
        cases rest_lowered : (lowerMethods { compiler with
            cache := compiler.cache.insert method.callable.name code } rest).1 with
        | error failure =>
            rw [rest_lowered] at lowered
            cases lowered
        | ok others =>
            rw [rest_lowered] at lowered
            cases lowered
            have rest_texts := induction distinct rest_uncached rest_lowered
            exact .cons ⟨code, own, rfl⟩ rest_texts

/-- A fresh compiler lowers the function with the name and the items of a method to the code that
the method is lowered to. -/
theorem lowerTuples_function {callable : Callable} {declared : Nat} {items : List Json}
    {naming : Naming} {name code : String}
    (decoded : Callable.decode (Callable.form .method name declared items) = .ok callable)
    (lowered : callable.lower naming = .ok code) :
    (({ naming } : Compiler).lowerTuples (Callable.form .function name declared items)).1 =
      .ok code := by
  have read : Callable.decode (Callable.form .function name declared items) =
      .ok callable.toFunction := by
    rw [Callable.decode_form_function, decoded]
    rfl
  have same : callable.toFunction.lower naming = callable.lower naming :=
    Callable.lower_eq_of_name_eq naming rfl rfl rfl
  rw [lowerTuples_of_decode read, lower_of_uncached rfl, remember_fst, same, lowered]

/-- An item of a descriptor is a method with a text: its modifiers, a space, the code that a fresh
compiler has for the function with its name and its items, and a line end. -/
def HasMethodText (naming : Naming) (item : Json) (text : String) : Prop :=
  ∃ fields items visibility name declared code,
    item = .array (.array fields :: items) ∧ Method.Declares fields visibility name declared ∧
      (({ naming } : Compiler).lowerTuples (Callable.form .function name declared items)).1 =
        .ok code ∧
      text = (Modifiers.ofFields visibility fields).render ++ " " ++ code ++ "\n"

theorem hasMethodText_of_decode {naming : Naming} {item : Json} {method : Method} {code : String}
    (decoded : Method.decode item = .ok method)
    (lowered : method.callable.lower naming = .ok code) :
    HasMethodText naming item (method.text code) := by
  obtain ⟨fields, items, visibility, declared, item_eq, declares, modifiers_eq, read⟩ :=
    Method.exists_declares_of_decode decoded
  refine ⟨fields, items, visibility, method.name, declared, code, item_eq, declares,
    lowerTuples_function read lowered, ?_⟩
  rw [Method.text, modifiers_eq]

theorem hasMethodText_of_listed {naming : Naming} {items : List Json}
    (listed : List.Forall₂ (fun item method => Method.decode item = .ok method) items methods)
    (lowered : List.Forall₂ (fun method text => ∃ code,
      method.callable.lower naming = .ok code ∧ text = method.text code) methods texts) :
    List.Forall₂ (HasMethodText naming) items texts := by
  induction listed generalizing texts with
  | nil => cases lowered; exact .nil
  | cons decoded _ induction =>
      cases lowered with
      | cons first rest =>
          obtain ⟨code, own, rfl⟩ := first
          exact .cons (hasMethodText_of_decode decoded own) (induction rest)

/-- What goes into the text of a class. -/
theorem parts_of_lowerClass {decl : ClassDecl} {text : String}
    (lowered : (compiler.lowerClass decl).1 = .ok text) :
    ∃ lines texts, decl.properties.mapM Property.lower = .ok lines ∧
      (compiler.lowerMethods decl.methods).1 = .ok texts ∧
      text = Script.classOf decl.name decl.parent decl.interfaces
        (String.join (lines ++ texts)) := by
  rw [lowerClass_eq] at lowered
  cases lines_lowered : decl.properties.mapM Property.lower with
  | error failure =>
      rw [lines_lowered] at lowered
      cases lowered
  | ok lines =>
      rw [lines_lowered] at lowered
      cases methods_lowered : (compiler.lowerMethods decl.methods).1 with
      | error failure =>
          rw [methods_lowered] at lowered
          cases lowered
      | ok texts =>
          rw [methods_lowered] at lowered
          exact ⟨lines, texts, rfl, rfl, (Except.ok.inj lowered).symm⟩

/-- Methods are read and lowered as functions are. Behind a header that declares a method, it is
read as the callable of its name, its count and its items: both give the same callable, or both
fail in the same way. They overflow only if there is no room for the parameters that the header
declares, and then they do so whatever the items are, unless there are that many of them. If the
methods of a class that has been read have different names, none of which is known, and the class
can be lowered, then it has the properties and the methods that its descriptor lists, in that order,
and each method has the code that a fresh compiler has for the function of its name, its count and
its items. -/
theorem methods_are_functions :
    (∀ fields items visibility name declared, Method.Declares fields visibility name declared →
      Method.decode (.array (.array fields :: items)) =
        (Callable.decode (Callable.form .method name declared items)).map
          (Method.mk (.ofFields visibility fields)) ∧
      (declared ≤ Opening.capacity →
        Method.decode (.array (.array fields :: items)) ≠ .error .overflow) ∧
      (Opening.capacity < declared → items.length < declared →
        Method.decode (.array (.array fields :: items)) = .error .overflow)) ∧
    ∀ (compiler : Compiler) (value : Json) (decl : ClassDecl) (text : String),
      ClassDecl.decode value = .ok decl → (decl.methods.map Method.name).Nodup →
      (∀ method ∈ decl.methods, compiler.cache.get? method.name = none) →
      (compiler.lowerClass decl).1 = .ok text →
      List.Forall₂ (fun item property => Property.decode item = .ok property)
          (value.listAt "properties") decl.properties ∧
        List.Forall₂ (fun item method => Method.decode item = .ok method)
          (value.listAt "methods") decl.methods ∧
        ∃ lines texts, List.Forall₂ Property.HasLine decl.properties lines ∧
          List.Forall₂ (HasMethodText compiler.naming) (value.listAt "methods") texts ∧
          text = Script.classOf decl.name decl.parent decl.interfaces
            (String.join (lines ++ texts)) := by
  constructor
  · intro fields items visibility name declared declares
    have same := Method.decode_of_declares declares items
    refine ⟨same, fun room overflowing => ?_, fun beyond fewer => ?_⟩
    · rw [same, Except.map_eq_error] at overflowing
      exact Callable.decode_form_ne_overflow .method room overflowing
    · rw [same, Except.map_eq_error]
      exact Callable.decode_form_of_beyond .method beyond fewer
  · intro compiler value decl text decoded distinct uncached lowered
    obtain ⟨properties_listed, methods_listed⟩ := ClassDecl.listed_of_decode decoded
    obtain ⟨lines, texts, lines_lowered, methods_lowered, text_eq⟩ := parts_of_lowerClass lowered
    have own := lowerMethods_of_distinct distinct uncached methods_lowered
    exact ⟨properties_listed, methods_listed, lines, texts,
      (Property.hasLine_of_mapM_lower lines_lowered).2,
      hasMethodText_of_listed methods_listed own, text_eq⟩

/-- The header of a method, with a flag that is set by a value and one that is not set. -/
def toggleHeader : List Json :=
  [.null, .string "private", .bool true, .string "static", .string "toggle", .ofNat 1]

/-- The items of that method behind its header. -/
def toggleItems : List Json :=
  [.array [.string "param", .ofNat 4], .array [.string "begin"],
    .array [.string "label", .ofNat 9], .array [.string "jump", .ofNat 9]]

/-- The descriptor of a class with two methods that both have variables. -/
def toggle : Json :=
  .object [
    ("methods", .array [
      .array [.array [.null, .string "public", .null, .string "final", .string "get", .ofNat 1],
        .array [.string "param", .ofNat 7], .array [.string "begin"],
        .array [.string "return", .ofNat 7]],
      .array (.array toggleHeader :: toggleItems)]),
    ("name", .string "Toggle"),
    ("properties", .array [
      .array [.null, .string "on", .string "public", .null, .string "bool", .bool true]])]

/-- The class of that descriptor. -/
def toggleDecl : ClassDecl where
  name := "Toggle"
  parent := none
  interfaces := []
  properties := [⟨none, "on", .pub, false, "bool", some "true"⟩]
  methods :=
    [⟨⟨.pub, false, true⟩, ⟨.method, "get", [.ofWord 7]⟩, [.ret (some (.ofWord 7))]⟩,
      ⟨⟨.priv, true, false⟩, ⟨.method, "toggle", [.ofWord 4]⟩, [.label ⟨9⟩, .jump ⟨9⟩]⟩]

/-- The text of that class. -/
def toggleText : String :=
  "class Toggle " ++ Script.braced ("\npublic $on = true;\n" ++
    "public final function get($var2) " ++ Script.braced "\nreturn $var2;\n" ++ "\n" ++
    "private static function toggle($var2) " ++ Script.braced "\nlabel_1:\ngoto label_1;\n" ++
    "\n\n")

/-- The header of a method with more parameters than there is room for, by one. -/
def crowdedHeader : List Json :=
  [.null, .string "public", .null, .null, .string "m", .ofNat 2305843009213693952]

/-- The variables and labels of both methods are numbered from the start, and the method with too
many parameters overflows. -/
theorem toggle_methods_are_functions :
    Method.Declares toggleHeader .priv "toggle" 1 ∧
      Method.decode (.array (.array toggleHeader :: toggleItems)) =
        (Callable.decode (Callable.form .method "toggle" 1 toggleItems)).map
          (Method.mk ⟨.priv, true, false⟩) ∧
      Method.decode (.array (.array toggleHeader :: toggleItems)) ≠ .error .overflow ∧
      Method.decode (.array (.array crowdedHeader :: toggleItems)) = .error .overflow ∧
      ClassDecl.decode toggle = .ok toggleDecl ∧ (toggleDecl.methods.map Method.name).Nodup ∧
      (({} : Compiler).lowerClass toggleDecl).1 = .ok toggleText ∧
      ∃ lines texts, List.Forall₂ Property.HasLine toggleDecl.properties lines ∧
        List.Forall₂ (HasMethodText {}) (toggle.listAt "methods") texts ∧
        toggleText = Script.classOf "Toggle" none [] (String.join (lines ++ texts)) := by
  have declares : Method.Declares toggleHeader .priv "toggle" 1 := ⟨rfl, rfl, rfl⟩
  have crowded : Method.Declares crowdedHeader .pub "m" 2305843009213693952 := ⟨rfl, rfl, rfl⟩
  have decoded : ClassDecl.decode toggle = .ok toggleDecl := by decide +kernel
  have distinct : (toggleDecl.methods.map Method.name).Nodup := by decide +kernel
  have lowered : (({} : Compiler).lowerClass toggleDecl).1 = .ok toggleText := by decide +kernel
  obtain ⟨same, reported, -⟩ := methods_are_functions.1 _ toggleItems _ _ _ declares
  obtain ⟨-, -, overflows⟩ := methods_are_functions.1 _ toggleItems _ _ _ crowded
  obtain ⟨-, -, parts⟩ := methods_are_functions.2 {} toggle toggleDecl toggleText decoded distinct
    (fun _ _ => rfl) lowered
  exact ⟨declares, same, reported (by decide), overflows (by decide) (by decide), decoded, distinct,
    lowered, parts⟩

end Compiler

end ScriptLowering
