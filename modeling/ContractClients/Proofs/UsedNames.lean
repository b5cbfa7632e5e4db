import ContractClients.Proofs.Scope

/-!
# Names that generated code uses

Code uses a name as a type, as a function it calls, or as the start of a value.
The types and functions in the code of a conversion come from the SDK or are
built into TypeScript, and its values start with its input or with a temporary
that the code binds.
-/

set_option autoImplicit false

namespace ContractClients

namespace TypeScript

mutual

@[simp] def Ty.names : Ty → List String
  | .name text => [text]
  | .singleQuoted _ | .doubleQuoted _ => []
  | .apply head arguments => head :: typeNames arguments
  | .tuple items => typeNames items
  | .object properties => propertyTypeNames properties
  | .union [] => ["never"]
  | .union members => typeNames members

@[simp] def typeNames : List Ty → List String
  | [] => []
  | type :: rest => type.names ++ typeNames rest

@[simp] def propertyTypeNames : List (String × Ty) → List String
  | [] => []
  | (_, type) :: rest => type.names ++ propertyTypeNames rest

end

mutual

@[simp] def Expr.mentions : Expr → List String
  | .ref _ | .tuple _ | .object _ | .record _ | .source _ => []
  | .bigInt _ | .decimal _ => ["BigInt"]
  | .call function _ => [function]
  | .mapItems _ _ body => bodyMentions body
  | .mapEntries _ _ _ entryType body => entryType.names ++ bodyMentions body
  | .cast value type => value.mentions ++ type.names
  | .construct type argument => type.names ++ argument.mentions

@[simp] def Stmt.mentions : Stmt → List String
  | .const _ none value => value.mentions
  | .const _ (some type) value => type.names ++ value.mentions
  | .declare _ type => type.names
  | .assign _ value | .give value => value.mentions
  | .select _ blocks => blockMentions blocks
  | .dispatch _ blocks => blockMentions blocks ++ ["Error", "Object"]

@[simp] def bodyMentions : List Stmt → List String
  | [] => []
  | statement :: rest => statement.mentions ++ bodyMentions rest

@[simp] def blockMentions : List (String × List Stmt) → List String
  | [] => []
  | (_, body) :: rest => bodyMentions body ++ blockMentions rest

end

mutual

@[simp] def Expr.roots : Expr → List String
  | .ref value | .bigInt value | .decimal value | .call _ value => value.root?.toList
  | .tuple items => items.flatMap fun item => item.root?.toList
  | .object properties | .record properties =>
    properties.flatMap fun property => property.2.root?.toList
  | .source of => of.ref.root?.toList
  | .mapItems walked _ body | .mapEntries walked _ _ _ body =>
    walked.ref.root?.toList ++ bodyRoots body
  | .cast value _ | .construct _ value => value.roots

@[simp] def Stmt.roots : Stmt → List String
  | .const _ _ value | .give value => value.roots
  | .declare .. => []
  | .assign name value => name.text :: value.roots
  | .select subject blocks | .dispatch subject blocks => subject.root?.toList ++ blockRoots blocks

@[simp] def bodyRoots : List Stmt → List String
  | [] => []
  | statement :: rest => statement.roots ++ bodyRoots rest

@[simp] def blockRoots : List (String × List Stmt) → List String
  | [] => []
  | (_, body) :: rest => bodyRoots body ++ blockRoots rest

end

theorem Ref.InScope.root {scope : List String} {ref : Ref} (h : ref.InScope scope) :
    ∀ name ∈ ref.root?.toList, name ∈ scope := fun name hm => h name (Option.mem_toList.mp hm)

theorem mem_binders_of_declares {statement : Stmt} {temp : Temp}
    (h : temp ∈ statement.declares) : temp ∈ statement.binders := by
  cases statement with
  | const name type value => simp_all [Stmt.declares, Stmt.binders]
  | declare name type => simpa [Stmt.declares, Stmt.binders] using h
  | _ => simp [Stmt.declares] at h

theorem mem_bodyBinders {body : List Stmt} {temp : Temp} :
    temp ∈ bodyBinders body ↔ ∃ statement ∈ body, temp ∈ statement.binders := by
  induction body with
  | nil => simp [bodyBinders]
  | cons statement rest ih => simp [bodyBinders, ih]

mutual

theorem Expr.roots_bound {scope : List String} : ∀ {value : Expr}, value.InScope scope →
    ∀ name ∈ value.roots, name ∈ scope ++ value.binders.map Temp.text
  | .ref _, h, name, hm | .bigInt _, h, name, hm | .decimal _, h, name, hm
  | .call _ _, h, name, hm | .source _, h, name, hm =>
    List.mem_append_left _ (Ref.InScope.root h name hm)
  | .tuple _, h, name, hm => by
    obtain ⟨item, hi, hn⟩ := List.mem_flatMap.mp hm
    exact List.mem_append_left _ ((h item hi).root name hn)
  | .object _, h, name, hm | .record _, h, name, hm => by
    obtain ⟨property, hp, hn⟩ := List.mem_flatMap.mp hm
    exact List.mem_append_left _ ((h property hp).root name hn)
  | .mapItems walked item body, h, name, hm => by
    rcases List.mem_append.mp hm with hw | hb
    · exact List.mem_append_left _ (h.1.root name hw)
    · have := bodyRoots_bound h.2 name hb
      simp only [List.append_assoc, List.mem_append, Expr.binders, List.map_cons] at this ⊢
      grind
  | .mapEntries walked key entry _ body, h, name, hm => by
    rcases List.mem_append.mp hm with hw | hb
    · exact List.mem_append_left _ (h.1.root name hw)
    · have := bodyRoots_bound h.2 name hb
      simp only [List.append_assoc, List.mem_append, Expr.binders, List.map_cons] at this ⊢
      grind
  | .cast _ _, h, name, hm | .construct _ _, h, name, hm => by
    rw [Expr.InScope] at h
    rw [Expr.roots] at hm
    rw [Expr.binders]
    exact Expr.roots_bound h name hm

theorem Stmt.roots_bound {scope : List String} : ∀ {statement : Stmt}, statement.InScope scope →
    ∀ name ∈ statement.roots, name ∈ scope ++ statement.binders.map Temp.text
  | .const _ _ _, h, name, hm => by
    have := Expr.roots_bound h name hm
    simp only [Stmt.binders, List.map_append, ← List.append_assoc]
    exact List.mem_append_left _ this
  | .give _, h, name, hm => Expr.roots_bound h name hm
  | .declare .., _, name, hm => by simp [Stmt.roots] at hm
  | .assign _ _, h, name, hm => by
    rcases List.mem_cons.mp hm with rfl | hv
    · exact List.mem_append_left _ h.1
    · exact Expr.roots_bound h.2 name hv
  | .select _ _, h, name, hm | .dispatch _ _, h, name, hm => by
    rcases List.mem_append.mp hm with hs | hb
    · exact List.mem_append_left _ (h.1.root name hs)
    · exact blockRoots_bound h.2 name hb

theorem bodyRoots_bound {scope : List String} : ∀ {body : List Stmt}, bodyInScope scope body →
    ∀ name ∈ bodyRoots body, name ∈ scope ++ (bodyBinders body).map Temp.text
  | [], _, name, hm => by simp [bodyRoots] at hm
  | statement :: rest, h, name, hm => by
    rw [bodyBinders, List.map_append, ← List.append_assoc]
    rcases List.mem_append.mp hm with hs | hr
    · exact List.mem_append_left _ (Stmt.roots_bound h.1 name hs)
    · have := bodyRoots_bound h.2 name hr
      rcases List.mem_append.mp this with hscope | hrest
      · rcases List.mem_append.mp hscope with hscope | hdeclared
        · exact List.mem_append_left _ (List.mem_append_left _ hscope)
        · obtain ⟨temp, ht, rfl⟩ := List.mem_map.mp hdeclared
          exact List.mem_append_left _ (List.mem_append_right _
            (List.mem_map_of_mem (mem_binders_of_declares ht)))
      · exact List.mem_append_right _ hrest

theorem blockRoots_bound {scope : List String} : ∀ {blocks : List (String × List Stmt)},
    blocksInScope scope blocks →
    ∀ name ∈ blockRoots blocks, name ∈ scope ++ (blockBinders blocks).map Temp.text
  | [], _, name, hm => by simp [blockRoots] at hm
  | (_, body) :: rest, h, name, hm => by
    rcases List.mem_append.mp hm with hb | hr
    · have := bodyRoots_bound h.1 name hb
      rw [blockBinders, List.map_append, ← List.append_assoc]
      exact List.mem_append_left _ this
    · have := blockRoots_bound h.2 name hr
      simp only [List.mem_append, blockBinders, List.map_append] at this ⊢
      grind

end

end TypeScript

open TypeScript

def builtins : List String := [
  "string", "number", "bigint", "boolean", "never", "void", "undefined", "true", "this",
  "Array", "Set", "Map", "Promise", "BigInt", "Error", "Object"]

def Global (name : String) : Prop := (∃ rest, name = sdk rest) ∨ name ∈ builtins

def Globals (names : List String) : Prop := ∀ name ∈ names, Global name

@[simp] theorem global_sdk (name : String) : Global (sdk name) := .inl ⟨name, rfl⟩

@[simp] theorem global_sdk_member (name member : String) : Global (sdk name ++ member) :=
  .inl ⟨name ++ member, String.append_assoc⟩

@[simp] theorem globals_nil : Globals [] := by simp [Globals]

@[simp] theorem globals_cons (name : String) (rest : List String) :
    Globals (name :: rest) ↔ Global name ∧ Globals rest := List.forall_mem_cons

@[simp] theorem globals_append (first second : List String) :
    Globals (first ++ second) ↔ Globals first ∧ Globals second := List.forall_mem_append

@[simp] theorem global_builtin {name : String} (h : builtins.contains name) : Global name :=
  .inr (List.contains_iff_mem.mp h)

theorem typeNames_globals {types : List Ty} (h : ∀ type ∈ types, Globals type.names) :
    Globals (typeNames types) := by
  induction types with
  | nil => simp [typeNames]
  | cons type rest ih =>
    rw [typeNames, globals_append]
    exact ⟨h type (by simp), ih fun other hm => h other (by simp [hm])⟩

theorem union_globals {types : List Ty} (h : ∀ type ∈ types, Globals type.names) :
    Globals (Ty.union types).names := by
  cases types with
  | nil => simp [Ty.names, builtins]
  | cons type rest => exact typeNames_globals h

theorem scalarType_globals (side : Side) (form : ScalarForm) :
    Globals (form.typeAt side).names := by
  cases side <;> cases form <;>
    simp [ScalarForm.typeAt, numberOrBigint, Ty.names, typeNames, builtins]

def TypesGlobal (type : SchemaType) : Prop := ∀ side, Globals (type.typeAt side).names

def FieldsGlobal (fields : Fields) : Prop := ∀ side, Globals (fields.typeAt side).names

theorem namedTypes_globals {fields : List (String × SchemaType)}
    (h : ∀ field ∈ fields, TypesGlobal field.2) (side : Side) :
    Globals (propertyTypeNames (namedTypes side fields)) := by
  induction fields with
  | nil => simp [namedTypes, propertyTypeNames]
  | cons field rest ih =>
    rw [namedTypes, propertyTypeNames, globals_append]
    exact ⟨h field (by simp) side, ih fun other hm => h other (by simp [hm])⟩

theorem fieldTypes_globals {fields : List SchemaType}
    (h : ∀ field ∈ fields, TypesGlobal field) (side : Side) :
    Globals (typeNames (fieldTypes side fields)) := by
  induction fields with
  | nil => simp [fieldTypes, typeNames]
  | cons field rest ih =>
    rw [fieldTypes, typeNames, globals_append]
    exact ⟨h field (by simp) side, ih fun other hm => h other (by simp [hm])⟩

theorem variantType_globals (side : Side) (name : String) (fields : Fields) {content : Ty}
    (h : Globals content.names) : Globals (variantType side name fields content).names := by
  cases side with
  | json => simpa [variantType, Ty.names, propertyTypeNames] using h
  | native =>
    rw [variantType]
    split <;> simp [Ty.names, propertyTypeNames, h]

theorem variantTypes_globals {variants : List (String × Fields)}
    (h : ∀ variant ∈ variants, FieldsGlobal variant.2) (side : Side) :
    ∀ type ∈ variantTypes side variants, Globals type.names := by
  induction variants with
  | nil => simp [variantTypes]
  | cons variant rest ih =>
    rw [variantTypes, List.forall_mem_cons]
    exact ⟨variantType_globals side variant.1 variant.2 (h variant (by simp) side),
      ih fun other hm => h other (by simp [hm])⟩

theorem unnamed_global {fields : List SchemaType} (h : ∀ field ∈ fields, TypesGlobal field) :
    FieldsGlobal (.unnamed fields) := by
  intro side
  have htuple := fieldTypes_globals h side
  match fields, h with
  | [], _ => simp [Fields.typeAt, fieldTypes, Ty.names, typeNames]
  | [field], h =>
    have hfield := h field (by simp) side
    cases side <;> simpa [Fields.typeAt, Ty.names, typeNames] using hfield
  | _ :: _ :: _, _ => rwa [Fields.typeAt, Ty.names]; simp

theorem typeAt_cases : SchemaCases TypesGlobal FieldsGlobal where
  scalar scalar _ side := scalarType_globals side scalar.form
  leb128 _ _ side := scalarType_globals side .wideInteger
  string _ _ := by simp [SchemaType.typeAt, Ty.names, builtins]
  byteList _ side := by cases side <;> simp [SchemaType.typeAt, Ty.names, builtins]
  byteArray _ side := by cases side <;> simp [SchemaType.typeAt, Ty.names, builtins]
  pair _ _ hf hs side := by simp [SchemaType.typeAt, Ty.names, typeNames, hf side, hs side]
  list _ _ ih side := by simp [SchemaType.typeAt, Ty.names, typeNames, builtins, ih side]
  set _ _ ih side := by
    have := ih side
    cases side <;> simpa [SchemaType.typeAt, Ty.names, typeNames, builtins]
  map _ _ _ hk hv side := by
    have := And.intro (hk side) (hv side)
    cases side <;> simpa [SchemaType.typeAt, Ty.names, typeNames, builtins]
  array item size ih side := by
    rw [SchemaType.typeAt, Ty.names]
    apply typeNames_globals
    intro type hm
    rw [List.eq_of_mem_replicate hm]
    exact ih side
  struct _ ih side := by rw [SchemaType.typeAt]; exact ih side
  enum _ _ ih side := by rw [SchemaType.typeAt]; exact union_globals (variantTypes_globals ih side)
  named _ ih side := by rw [Fields.typeAt, Ty.names]; exact namedTypes_globals ih side
  unnamed _ ih := unnamed_global ih
  none side := by cases side <;> simp [Fields.typeAt, Ty.names, typeNames]

theorem typeAt_globals (type : SchemaType) (side : Side) : Globals (type.typeAt side).names :=
  typeAt_cases.types type side

@[simp] theorem bodyMentions_append (first second : List Stmt) :
    bodyMentions (first ++ second) = bodyMentions first ++ bodyMentions second := by
  induction first with
  | nil => rfl
  | cons statement rest ih =>
    rw [List.cons_append, bodyMentions, bodyMentions, ih, List.append_assoc]

def CodeGlobal (code : Code) : Prop := Globals (bodyMentions code.statements)

@[simp] theorem codeGlobal_pass (ref : Ref) : CodeGlobal (.pass ref) := globals_nil

theorem bindConst_global {category : String} {type : Option Ty} {value : Expr}
    (ht : ∀ t ∈ type, Globals t.names) (hv : Globals value.mentions) :
    (bindConst category type value).Ensures fun _ code => CodeGlobal code := by
  intro n
  show Globals (bodyMentions [.const ⟨category, n⟩ type value])
  cases type with
  | none => simpa [bodyMentions, Stmt.mentions] using hv
  | some t => simpa [bodyMentions, Stmt.mentions] using And.intro (ht t rfl) hv

theorem finish_global {statements : List Stmt} (hs : Globals (bodyMentions statements))
    {category : String} {type : Ty} {value : Expr} (ht : Globals type.names)
    (hv : Globals value.mentions) :
    (do
      let last ← bindConst category (some type) value
      return (⟨statements ++ last.statements, last.ref⟩ : Code)).Ensures
      fun _ code => CodeGlobal code := by
  refine Supply.ensures_bind (bindConst_global (by simpa using ht) hv) ?_
  intro issued last hlast
  apply Supply.ensures_pure
  rw [CodeGlobal, bodyMentions_append, globals_append]
  exact ⟨hs, hlast⟩

def ConvertsGlobal (type : SchemaType) : Prop :=
  ∀ side ref, (type.convert side ref).Ensures fun _ code => CodeGlobal code

def FieldsConvertGlobal (fields : Fields) : Prop :=
  ∀ side ref, (fields.convert side ref).Ensures fun _ code => CodeGlobal code

theorem scalarForm_global (form : ScalarForm) (side : Side) (ref : Ref) :
    (form.convert side ref).Ensures fun _ code => CodeGlobal code := by
  have hconst : ∀ category value, Globals value.mentions →
      (bindConst category none value).Ensures fun _ code => CodeGlobal code :=
    fun category value hv => bindConst_global (by simp) hv
  have hpass : ∀ value, (pure (.pass value) : Supply Code).Ensures fun _ code => CodeGlobal code :=
    fun value => Supply.ensures_pure (codeGlobal_pass value)
  cases form with
  | unit => cases side <;> exact hpass _
  | boolean | machineInteger => cases side <;> exact hpass ref
  | longInteger =>
    cases side with
    | native => exact hpass ref
    | json => exact hconst _ _ (by simp [Expr.mentions, builtins])
  | wideInteger => cases side <;> exact hconst _ _ (by simp [Expr.mentions, builtins])
  | domain moduleName => cases side <;> exact hconst _ _ (by simp [Expr.mentions])

theorem pair_global {first second : SchemaType} (hf : ConvertsGlobal first)
    (hs : ConvertsGlobal second) : ConvertsGlobal (.pair first second) := by
  intro side ref
  rw [SchemaType.convert]
  refine Supply.ensures_bind (hf side (.index ref 0)) ?_
  intro _ firstCode hfirst
  refine Supply.ensures_bind (hs side (.index ref 1)) ?_
  intro _ secondCode hsecond
  split
  · exact Supply.ensures_pure (codeGlobal_pass ref)
  · apply finish_global
    · rw [bodyMentions_append, globals_append]
      exact ⟨hfirst, hsecond⟩
    · simp [Ty.names, typeNames, typeAt_globals]
    · simp [Expr.mentions]

theorem CodeGlobal.body {code : Code} (h : CodeGlobal code) : Globals (bodyMentions code.body) := by
  rw [Code.body, bodyMentions_append, globals_append]
  exact ⟨h, by simp [bodyMentions, Stmt.mentions, Expr.mentions]⟩

theorem CodeGlobal.mapped {code : Code} (h : CodeGlobal code) (walked : Source) (item : Temp) :
    Globals (mapped walked item code (.source walked)).mentions := by
  rw [ContractClients.mapped]
  split
  · simp [Expr.mentions]
  · exact h.body

theorem item_global {item : SchemaType} (ih : ConvertsGlobal item) (side : Side)
    {finish : Temp → Code → Supply Code}
    (hf : ∀ name code, CodeGlobal code → (finish name code).Ensures fun _ code => CodeGlobal code) :
    (do
      let name ← fresh "item"
      let code ← item.convert side (.temp name)
      finish name code).Ensures fun _ code => CodeGlobal code := by
  apply Supply.ensures_fresh_bind
  intro name _
  refine Supply.ensures_bind (ih side (.temp name)) ?_
  intro _ code hcode
  exact hf name code hcode

theorem rebuildItems_global {code : Code} (h : CodeGlobal code) (ref : Ref) (item : Temp)
    {finish : Expr → Expr} {type : Ty} (ht : Globals type.names)
    (hf : ∀ value, Globals value.mentions → Globals (finish value).mentions) :
    (rebuildItems ref item code finish type).Ensures fun _ code => CodeGlobal code := by
  rw [rebuildItems]
  split
  · exact Supply.ensures_pure (codeGlobal_pass ref)
  · exact bindConst_global (by simpa using ht) (hf _ h.body)

theorem list_global {item : SchemaType} (ih : ConvertsGlobal item) (sizeLength : SizeLength) :
    ConvertsGlobal (.list item sizeLength) := by
  intro side ref
  rw [SchemaType.convert, convertItems]
  apply item_global ih
  intro name code h
  apply rebuildItems_global h ref name
  · simp [Ty.names, typeNames, typeAt_globals, builtins]
  · exact fun _ hv => hv

theorem array_global {item : SchemaType} (ih : ConvertsGlobal item) (size : Int) :
    ConvertsGlobal (.array item size) := by
  intro side ref
  have htype := typeAt_globals (.array item size) side
  rw [SchemaType.typeAt] at htype
  rw [SchemaType.convert, convertItems]
  apply item_global ih
  intro name code h
  apply rebuildItems_global h ref name htype
  intro value hv
  rw [Expr.mentions, globals_append]
  exact ⟨hv, htype⟩

theorem set_global {item : SchemaType} (ih : ConvertsGlobal item) (sizeLength : SizeLength) :
    ConvertsGlobal (.set item sizeLength) := by
  intro side ref
  have htype := typeAt_globals (.set item sizeLength) side
  rw [SchemaType.convert]
  apply item_global ih
  intro name code h
  cases side with
  | native =>
    apply bindConst_global (by simp)
    rw [Expr.mentions, globals_append]
    exact ⟨htype, h.mapped (.items ref) name⟩
  | json => exact bindConst_global (by simpa using htype) (h.mapped (.values ref) name)

theorem mapEntries_global {keyCode valueCode : Code} (hk : CodeGlobal keyCode)
    (hv : CodeGlobal valueCode) (walked : Source) (key value : Temp) {type : Ty}
    (ht : Globals type.names) :
    Globals (mapEntries walked key value keyCode valueCode type).mentions := by
  rw [mapEntries]
  split
  · simp [Expr.mentions]
  · rw [Expr.mentions, bodyMentions_append, bodyMentions_append]
    simp only [globals_append]
    exact ⟨ht, ⟨hk, hv⟩, by simp [bodyMentions, Stmt.mentions, Expr.mentions]⟩

theorem map_global {key value : SchemaType} (hk : ConvertsGlobal key) (hv : ConvertsGlobal value)
    (sizeLength : SizeLength) : ConvertsGlobal (.map key value sizeLength) := by
  intro side ref
  have htype := typeAt_globals (.map key value sizeLength) side
  have hentry : Globals (Ty.tuple [key.typeAt side, value.typeAt side]).names := by
    simp [Ty.names, typeNames, typeAt_globals]
  rw [SchemaType.convert]
  apply Supply.ensures_fresh_bind
  intro keyName _
  apply Supply.ensures_fresh_bind
  intro valueName _
  refine Supply.ensures_bind (hk side (.temp keyName)) ?_
  intro _ keyCode hkey
  refine Supply.ensures_bind (hv side (.temp valueName)) ?_
  intro _ valueCode hvalue
  cases side with
  | native =>
    apply bindConst_global (by simp)
    rw [Expr.mentions, globals_append]
    exact ⟨htype, mapEntries_global hkey hvalue (.items ref) keyName valueName hentry⟩
  | json =>
    exact bindConst_global (by simpa using htype)
      (mapEntries_global hkey hvalue (.entries ref) keyName valueName hentry)

theorem convertNamed_global (side : Side) {fields : List (String × SchemaType)}
    (ih : ∀ field ∈ fields, ConvertsGlobal field.2) (ref : Ref) :
    (convertNamed side fields ref).Ensures fun _ result => Globals (bodyMentions result.1) := by
  induction fields with
  | nil => exact Supply.ensures_pure globals_nil
  | cons field rest hrest =>
    rw [convertNamed]
    refine Supply.ensures_bind (ih field (by simp) side (.property ref field.1)) ?_
    intro _ code hcode
    refine Supply.ensures_bind (hrest fun other hm => ih other (by simp [hm])) ?_
    intro _ others hothers
    apply Supply.ensures_pure
    rw [bodyMentions_append, globals_append]
    exact ⟨hcode, hothers⟩

theorem convertUnnamed_global (side : Side) (position : Nat) {fields : List SchemaType}
    (ih : ∀ field ∈ fields, ConvertsGlobal field) (ref : Ref) :
    (convertUnnamed side position fields ref).Ensures
      fun _ result => Globals (bodyMentions result.1) := by
  induction fields generalizing position with
  | nil => exact Supply.ensures_pure globals_nil
  | cons field rest hrest =>
    rw [convertUnnamed]
    refine Supply.ensures_bind (ih field (by simp) side (.index ref position)) ?_
    intro _ code hcode
    refine Supply.ensures_bind (hrest (position + 1) fun other hm => ih other (by simp [hm])) ?_
    intro _ others hothers
    apply Supply.ensures_pure
    rw [bodyMentions_append, globals_append]
    exact ⟨hcode, hothers⟩

theorem named_convert_global {fields : List (String × SchemaType)}
    (ih : ∀ field ∈ fields, ConvertsGlobal field.2) : FieldsConvertGlobal (.named fields) := by
  intro side ref
  rw [Fields.convert]
  refine Supply.ensures_bind (convertNamed_global side ih ref) ?_
  intro _ result hresult
  apply finish_global hresult
  · exact namedTypes_globals (fun field _ => typeAt_globals field.2) side
  · simp [Expr.mentions]

theorem unnamed_convert_global {fields : List SchemaType}
    (ih : ∀ field ∈ fields, ConvertsGlobal field) : FieldsConvertGlobal (.unnamed fields) := by
  intro side ref
  by_cases hone : fields.length = 1
  · obtain ⟨field, rfl⟩ := List.length_eq_one_iff.mp hone
    have hfield := ih field (by simp)
    cases side with
    | native => exact hfield .native (.index ref 0)
    | json =>
      rw [Fields.convert]
      refine Supply.ensures_bind (hfield .json ref) ?_
      intro _ code hcode
      apply finish_global hcode
      · simp [Ty.names, typeNames, typeAt_globals]
      · simp [Expr.mentions]
  · rw [convert_tuple side hone]
    refine Supply.ensures_bind (convertUnnamed_global side 0 ih ref) ?_
    intro _ result hresult
    apply finish_global hresult
    · exact fieldTypes_globals (fun field _ => typeAt_globals field) side
    · simp [Expr.mentions]

theorem variantCases_global (result : Temp) (ref : Ref) {variants : List (String × Fields)}
    (ih : ∀ variant ∈ variants, FieldsConvertGlobal variant.2) :
    (variantCases result ref variants).Ensures fun _ blocks => Globals (blockMentions blocks) := by
  induction variants with
  | nil => exact Supply.ensures_pure globals_nil
  | cons variant rest hrest =>
    rw [variantCases]
    refine Supply.ensures_bind (ih variant (by simp) .json (.property ref "content")) ?_
    intro _ content hcontent
    refine Supply.ensures_bind (hrest fun other hm => ih other (by simp [hm])) ?_
    intro _ blocks hblocks
    apply Supply.ensures_pure
    rw [blockMentions, bodyMentions_append]
    simp only [globals_append]
    exact ⟨⟨hcontent, by simp [bodyMentions, Stmt.mentions, Expr.mentions]⟩, hblocks⟩

theorem variantBranches_global (result : Temp) (ref : Ref) {variants : List (String × Fields)}
    (ih : ∀ variant ∈ variants, FieldsConvertGlobal variant.2) :
    (variantBranches result ref variants).Ensures
      fun _ blocks => Globals (blockMentions blocks) := by
  induction variants with
  | nil => exact Supply.ensures_pure globals_nil
  | cons variant rest hrest =>
    obtain ⟨name, fields⟩ := variant
    have hothers := hrest fun other hm => ih other (by simp [hm])
    cases hnone : fields.isNone with
    | true =>
      obtain rfl := Fields.eq_none_of_isNone hnone
      rw [variantBranches]
      refine Supply.ensures_bind hothers ?_
      intro _ blocks hblocks
      apply Supply.ensures_pure
      rw [blockMentions, globals_append]
      exact ⟨by simp [bodyMentions, Stmt.mentions, Expr.mentions], hblocks⟩
    | false =>
      rw [branches_content result ref name hnone]
      apply Supply.ensures_fresh_bind
      intro variant _
      refine Supply.ensures_bind (ih (name, fields) (by simp) .native (.temp variant)) ?_
      intro _ content hcontent
      refine Supply.ensures_bind hothers ?_
      intro _ blocks hblocks
      apply Supply.ensures_pure
      rw [blockMentions, bodyMentions_append, bodyMentions]
      simp only [globals_append]
      have hread : Globals (Stmt.const variant none (.ref (.property ref name))).mentions := by
        simp [Stmt.mentions, Expr.mentions]
      exact ⟨⟨⟨hread, hcontent⟩, by simp [bodyMentions]⟩, hblocks⟩

theorem enum_global {variants : List (String × Fields)}
    (ih : ∀ variant ∈ variants, FieldsConvertGlobal variant.2) (tagging : Tagging) :
    ConvertsGlobal (.enum variants tagging) := by
  intro side ref
  have htype := typeAt_globals (.enum variants tagging) side
  rw [SchemaType.convert]
  apply Supply.ensures_fresh_bind
  intro result _
  cases side with
  | native =>
    refine Supply.ensures_bind (variantBranches_global result ref ih) ?_
    intro _ blocks hblocks
    apply Supply.ensures_pure
    simp [CodeGlobal, bodyMentions, Stmt.mentions, htype, hblocks, builtins]
  | json =>
    refine Supply.ensures_bind (variantCases_global result ref ih) ?_
    intro _ blocks hblocks
    apply Supply.ensures_pure
    split <;> simp [CodeGlobal, bodyMentions, Stmt.mentions, htype, hblocks]

theorem convert_cases : SchemaCases ConvertsGlobal FieldsConvertGlobal where
  scalar scalar _ side ref := scalarForm_global scalar.form side ref
  leb128 _ _ side ref := scalarForm_global .wideInteger side ref
  string _ _ ref := Supply.ensures_pure (codeGlobal_pass ref)
  byteList _ _ ref := Supply.ensures_pure (codeGlobal_pass ref)
  byteArray _ _ ref := Supply.ensures_pure (codeGlobal_pass ref)
  pair _ _ hf hs := pair_global hf hs
  list _ sizeLength ih := list_global ih sizeLength
  set _ sizeLength ih := set_global ih sizeLength
  map _ _ sizeLength hk hv := map_global hk hv sizeLength
  array _ size ih := array_global ih size
  struct _ ih := ih
  enum _ tagging ih := enum_global ih tagging
  named _ ih := named_convert_global ih
  unnamed _ ih := unnamed_convert_global ih
  none side ref := by cases side <;> exact Supply.ensures_pure (codeGlobal_pass _)

theorem convert_global (type : SchemaType) (side : Side) (ref : Ref) (n : Int) :
    Globals (bodyMentions ((type.convert side ref).run n).1.statements) :=
  convert_cases.types type side ref n

/-- Values in the code of a conversion start with its input or a temporary of its own. -/
theorem convert_roots (type : SchemaType) (side : Side) (input : String) (n : Int) :
    let code := ((type.convert side (.given input)).run n).1
    ∀ name ∈ bodyRoots code.statements ++ code.ref.root?.toList,
      name ∈ rootName input :: (bodyBinders code.statements).map Temp.text := by
  intro code name hm
  have hscoped := (inScope_cases.types type side (.given input) n).within
  have hinput : (Ref.given input).InScope [rootName input] := by simp [Ref.InScope, Ref.root?]
  rcases List.mem_append.mp hm with hroot | hresult
  · exact bodyRoots_bound (hscoped.body _ hinput) name hroot
  · have := (hscoped.results _ hinput code.ref (List.mem_singleton_self _)).root name hresult
    rcases List.mem_append.mp this with hin | hdeclared
    · exact List.mem_append_left _ hin
    · obtain ⟨temp, ht, rfl⟩ := List.mem_map.mp hdeclared
      obtain ⟨statement, hs, hd⟩ := List.mem_flatMap.mp ht
      exact List.mem_append_right [rootName input]
        (List.mem_map_of_mem (mem_bodyBinders.mpr ⟨statement, hs, mem_binders_of_declares hd⟩))

end ContractClients
