import ContractClients.Proofs.Printing

/-!
# Code made of printable parts

Code is printable when its references are printed as fragments, its types too,
and its temporaries are named after known categories. What is asked of code is
asked of every part of it, at any depth. The code of a conversion is printable
when the reference it starts from is.
-/

set_option autoImplicit false

namespace ContractClients

open TypeScript

section Parts

variable (allowed : Char → Prop)

def RefPrints (ref : Ref) : Prop := Fragment allowed ref.text [] []

mutual

@[simp] def PrintableExpr : Expr → Prop
  | .ref value | .bigInt value | .decimal value => RefPrints allowed value
  | .call function argument => Fragment allowed function [] [] ∧ RefPrints allowed argument
  | .tuple items => ∀ item ∈ items, RefPrints allowed item
  | .object properties | .record properties =>
    ∀ property ∈ properties, RefPrints allowed property.2
  | .source of => Fragment allowed of.text [] []
  | .mapItems walked item body => Fragment allowed walked.text [] [] ∧
      item.category ∈ conversionCategories ∧ PrintableBody body
  | .mapEntries walked key value entryType body => Fragment allowed walked.text [] [] ∧
      key.category ∈ conversionCategories ∧ value.category ∈ conversionCategories ∧
      TypePrints entryType ∧ PrintableBody body
  | .cast value type => PrintableExpr value ∧ TypePrints type
  | .construct type argument => TypePrints type ∧ PrintableExpr argument

@[simp] def PrintableStmt : Stmt → Prop
  | .const name type value => name.category ∈ conversionCategories ∧
      (∀ ty ∈ type, TypePrints ty) ∧ PrintableExpr value
  | .declare name type => name.category ∈ conversionCategories ∧ TypePrints type
  | .assign name value => name.category ∈ conversionCategories ∧ PrintableExpr value
  | .give value => PrintableExpr value
  | .select subject blocks | .dispatch subject blocks =>
    RefPrints allowed subject ∧ PrintableBlocks blocks

@[simp] def PrintableBody : List Stmt → Prop
  | [] => True
  | statement :: rest => PrintableStmt statement ∧ PrintableBody rest

@[simp] def PrintableBlocks : List (String × List Stmt) → Prop
  | [] => True
  | (_, body) :: rest => PrintableBody body ∧ PrintableBlocks rest

end

structure PrintableCode (code : Code) : Prop where
  statements : PrintableBody allowed code.statements
  ref : RefPrints allowed code.ref

end Parts

section Conversions

variable {allowed : Char → Prop} {side : Side} {ref : Ref}

theorem printableBody_append {first second : List Stmt} (hf : PrintableBody allowed first)
    (hs : PrintableBody allowed second) : PrintableBody allowed (first ++ second) := by
  induction first with
  | nil => exact hs
  | cons statement rest ih =>
    rw [List.cons_append, PrintableBody]
    rw [PrintableBody] at hf
    exact ⟨hf.1, ih hf.2⟩

theorem printableBody_single {statement : Stmt} (h : PrintableStmt allowed statement) :
    PrintableBody allowed [statement] := by
  rw [PrintableBody]
  exact ⟨h, trivial⟩

theorem printableBody_mem {body : List Stmt} (h : PrintableBody allowed body) :
    ∀ statement ∈ body, PrintableStmt allowed statement := by
  induction body with
  | nil => simp
  | cons statement rest ih =>
    rw [PrintableBody] at h
    exact List.forall_mem_cons.mpr ⟨h.1, ih h.2⟩

theorem PrintableCode.body {code : Code} (h : PrintableCode allowed code) :
    PrintableBody allowed code.body := by
  refine printableBody_append h.statements (printableBody_single ?_)
  rw [PrintableStmt, PrintableExpr]
  exact h.ref

theorem temp_prints {name : Temp} (h : name.category ∈ conversionCategories) :
    RefPrints allowed (.temp name) := temp_fragment h

def ConvertsPrintable (allowed : Char → Prop) (type : SchemaType) : Prop :=
  ∀ side ref, RefPrints allowed ref →
    (type.convert side ref).Ensures fun _ code => PrintableCode allowed code

def FieldsConvertPrintable (allowed : Char → Prop) (fields : Fields) : Prop :=
  ∀ side ref, RefPrints allowed ref →
    (fields.convert side ref).Ensures fun _ code => PrintableCode allowed code

theorem pass_printable (h : RefPrints allowed ref) :
    (pure (.pass ref) : Supply Code).Ensures fun _ code => PrintableCode allowed code :=
  Supply.ensures_pure ⟨trivial, h⟩

theorem bindConst_printable {category : String} (hc : category ∈ conversionCategories)
    {type : Option Ty} (ht : ∀ ty ∈ type, TypePrints ty) {value : Expr}
    (hv : PrintableExpr allowed value) :
    (bindConst category type value).Ensures fun _ code => PrintableCode allowed code := by
  rw [bindConst]
  refine Supply.ensures_fresh_bind fun result hresult => Supply.ensures_pure ?_
  have hknown : result.category ∈ conversionCategories := hresult ▸ hc
  refine ⟨printableBody_single ?_, temp_prints hknown⟩
  rw [PrintableStmt]
  exact ⟨hknown, ht, hv⟩

/-- Statements that end with a constant, which is the result. -/
theorem finish_printable {statements : List Stmt} (hs : PrintableBody allowed statements)
    {category : String} (hc : category ∈ conversionCategories) {type : Ty} (ht : TypePrints type)
    {value : Expr} (hv : PrintableExpr allowed value) :
    (do
      let last ← bindConst category (some type) value
      return ⟨statements ++ last.statements, last.ref⟩ : Supply Code).Ensures
        fun _ code => PrintableCode allowed code := by
  refine Supply.ensures_bind (bindConst_printable hc (by simpa using ht) hv) fun _ last h => ?_
  exact Supply.ensures_pure ⟨printableBody_append hs h.statements, h.ref⟩

theorem scalarForm_printable {form : ScalarForm} (ho : form.Ordinary) (h : RefPrints allowed ref) :
    (form.convert side ref).Ensures fun _ code => PrintableCode allowed code := by
  have hconst : ∀ category ∈ conversionCategories, ∀ value : Expr, PrintableExpr allowed value →
      (bindConst category none value).Ensures fun _ code => PrintableCode allowed code :=
    fun category hc value hv => bindConst_printable hc (by simp) hv
  cases form with
  | unit =>
    cases side with
    | native => exact pass_printable (fragment_quote "Unit")
    | json => exact pass_printable (fragment_fixed rfl rfl rfl)
  | boolean => cases side <;> exact pass_printable h
  | machineInteger => cases side <;> exact pass_printable h
  | longInteger =>
    cases side with
    | native => exact pass_printable h
    | json => exact hconst "bigint" (by decide) _ (by rw [PrintableExpr]; exact h)
  | wideInteger =>
    cases side <;> exact hconst "number" (by decide) _ (by rw [PrintableExpr]; exact h)
  | domain moduleName =>
    have hmodule : Fragment allowed (sdk moduleName) [] [] :=
      (ho.module moduleName rfl).imp fun _ h => h.elim
    have hcall : ∀ name, Fragment allowed name [] [] →
        PrintableExpr allowed (.call (sdk moduleName ++ name) ref) := by
      intro name hname
      rw [PrintableExpr]
      exact ⟨hmodule.append hname, h⟩
    have hc := ho.known moduleName rfl
    cases side with
    | native => exact hconst _ hc _ (hcall _ (fragment_fixed rfl rfl rfl))
    | json => exact hconst _ hc _ (hcall _ (fragment_fixed rfl rfl rfl))

theorem tuple_printable {items : List Ref} (h : ∀ item ∈ items, RefPrints allowed item) :
    PrintableExpr allowed (.tuple items) := by
  rw [PrintableExpr]
  exact h

theorem pair_printable {first second : SchemaType} (hf : ConvertsPrintable allowed first)
    (hs : ConvertsPrintable allowed second) : ConvertsPrintable allowed (.pair first second) := by
  intro side ref h
  rw [SchemaType.convert]
  refine Supply.ensures_bind (hf side _ (index_fragment h 0)) fun _ firstCode hfirst => ?_
  refine Supply.ensures_bind (hs side _ (index_fragment h 1)) fun _ secondCode hsecond => ?_
  split
  · exact pass_printable h
  · exact finish_printable (printableBody_append hfirst.statements hsecond.statements) (by decide)
      (types_print.types (.pair first second) side)
      (tuple_printable (by simpa using ⟨hfirst.ref, hsecond.ref⟩))

theorem item_printable {item : SchemaType} (ih : ConvertsPrintable allowed item) (side : Side)
    {finish : Temp → Code → Supply Code}
    (hf : ∀ name code, name.category ∈ conversionCategories → PrintableCode allowed code →
      (finish name code).Ensures fun _ code => PrintableCode allowed code) :
    (do
      let name ← fresh "item"
      let code ← item.convert side (.temp name)
      finish name code).Ensures fun _ code => PrintableCode allowed code := by
  refine Supply.ensures_fresh_bind fun name hname => ?_
  have hknown : name.category ∈ conversionCategories := by rw [hname]; decide
  refine Supply.ensures_bind (ih side (.temp name) (temp_prints hknown)) fun _ code hcode => ?_
  exact hf name code hknown hcode

theorem mapItems_printable {walked : Source} (hw : Fragment allowed walked.text [] [])
    {item : Temp} (hi : item.category ∈ conversionCategories) {code : Code}
    (hc : PrintableCode allowed code) :
    PrintableExpr allowed (.mapItems walked item code.body) := by
  rw [PrintableExpr]
  exact ⟨hw, hi, hc.body⟩

theorem rebuildItems_printable (h : RefPrints allowed ref) {item : Temp}
    (hi : item.category ∈ conversionCategories) {code : Code} (hc : PrintableCode allowed code)
    {finish : Expr → Expr}
    (hf : ∀ value, PrintableExpr allowed value → PrintableExpr allowed (finish value)) {type : Ty}
    (ht : TypePrints type) :
    (rebuildItems ref item code finish type).Ensures fun _ code => PrintableCode allowed code := by
  rw [rebuildItems]
  split
  · exact pass_printable h
  · have hwalked : Fragment allowed (Source.items ref).text [] [] := h
    exact bindConst_printable (by decide) (by simpa using ht)
      (hf _ (mapItems_printable hwalked hi hc))

theorem list_printable {item : SchemaType} (ih : ConvertsPrintable allowed item)
    (sizeLength : SizeLength) : ConvertsPrintable allowed (.list item sizeLength) := by
  intro side ref h
  rw [SchemaType.convert, convertItems]
  have htype := types_print.types (.list item sizeLength) side
  exact item_printable ih side fun name code hname hcode =>
    rebuildItems_printable h hname hcode (fun _ hv => hv) htype

theorem array_printable {item : SchemaType} (ih : ConvertsPrintable allowed item) (size : Int) :
    ConvertsPrintable allowed (.array item size) := by
  intro side ref h
  rw [SchemaType.convert, convertItems]
  have htype := types_print.types (.array item size) side
  refine item_printable ih side fun name code hname hcode => ?_
  refine rebuildItems_printable h hname hcode (fun value hv => ?_) htype
  rw [PrintableExpr]
  exact ⟨hv, htype⟩

theorem mapped_printable {walked : Source} (hw : Fragment allowed walked.text [] []) {item : Temp}
    (hi : item.category ∈ conversionCategories) {code : Code} (hc : PrintableCode allowed code) :
    PrintableExpr allowed (mapped walked item code (.source walked)) := by
  rw [mapped]
  split
  · rw [PrintableExpr]
    exact hw
  · exact mapItems_printable hw hi hc

theorem construct_printable {value : Expr} {type : Ty} (ht : TypePrints type)
    (hv : PrintableExpr allowed value) : PrintableExpr allowed (.construct type value) := by
  rw [PrintableExpr]
  exact ⟨ht, hv⟩

theorem set_printable {item : SchemaType} (ih : ConvertsPrintable allowed item)
    (sizeLength : SizeLength) : ConvertsPrintable allowed (.set item sizeLength) := by
  intro side ref h
  rw [SchemaType.convert]
  have htype := types_print.types (.set item sizeLength) side
  refine item_printable ih side fun name code hname hcode => ?_
  cases side with
  | native =>
    have hwalked : Fragment allowed (Source.items ref).text [] [] := h
    exact bindConst_printable (by decide) (by simp)
      (construct_printable htype (mapped_printable hwalked hname hcode))
  | json =>
    exact bindConst_printable (by decide) (by simpa using htype)
      (mapped_printable (values_fragment h) hname hcode)

theorem mapEntries_printable {walked : Source} (hw : Fragment allowed walked.text [] [])
    {key value : Temp} (hk : key.category ∈ conversionCategories)
    (hv : value.category ∈ conversionCategories) {keyCode valueCode : Code}
    (hkc : PrintableCode allowed keyCode) (hvc : PrintableCode allowed valueCode) {type : Ty}
    (ht : TypePrints type) :
    PrintableExpr allowed (mapEntries walked key value keyCode valueCode type) := by
  rw [mapEntries]
  split
  · rw [PrintableExpr]
    exact hw
  · have hgive : PrintableStmt allowed (.give (.tuple [keyCode.ref, valueCode.ref])) := by
      rw [PrintableStmt]
      exact tuple_printable (by simpa using ⟨hkc.ref, hvc.ref⟩)
    rw [PrintableExpr]
    exact ⟨hw, hk, hv, ht, printableBody_append (printableBody_append hkc.statements hvc.statements)
      (printableBody_single hgive)⟩

theorem map_printable {key value : SchemaType} (hk : ConvertsPrintable allowed key)
    (hv : ConvertsPrintable allowed value) (sizeLength : SizeLength) :
    ConvertsPrintable allowed (.map key value sizeLength) := by
  intro side ref h
  rw [SchemaType.convert]
  refine Supply.ensures_fresh_bind fun keyName hkeyName => ?_
  refine Supply.ensures_fresh_bind fun valueName hvalueName => ?_
  have hkey : keyName.category ∈ conversionCategories := by rw [hkeyName]; decide
  have hvalue : valueName.category ∈ conversionCategories := by rw [hvalueName]; decide
  refine Supply.ensures_bind (hk side _ (temp_prints hkey)) fun _ keyCode hkc => ?_
  refine Supply.ensures_bind (hv side _ (temp_prints hvalue)) fun _ valueCode hvc => ?_
  have htype := types_print.types (.map key value sizeLength) side
  have hentry := types_print.types (.pair key value) side
  cases side with
  | native =>
    have hwalked : Fragment allowed (Source.items ref).text [] [] := h
    exact bindConst_printable (by decide) (by simp)
      (construct_printable htype (mapEntries_printable hwalked hkey hvalue hkc hvc hentry))
  | json =>
    exact bindConst_printable (by decide) (by simpa using htype)
      (mapEntries_printable (entries_fragment h) hkey hvalue hkc hvc hentry)

theorem convertNamed_printable (side : Side) {fields : List (String × SchemaType)}
    (ih : ∀ field ∈ fields, ConvertsPrintable allowed field.2) (h : RefPrints allowed ref) :
    (convertNamed side fields ref).Ensures fun _ result => PrintableBody allowed result.1 ∧
      ∀ property ∈ result.2, RefPrints allowed property.2 := by
  induction fields with
  | nil => exact Supply.ensures_pure ⟨trivial, by simp⟩
  | cons field rest hrest =>
    obtain ⟨name, type⟩ := field
    obtain ⟨hfield, hothers⟩ := List.forall_mem_cons.mp ih
    rw [convertNamed]
    refine Supply.ensures_bind (hfield side _ (fragment_accessor h name)) fun _ code hcode => ?_
    refine Supply.ensures_bind (hrest hothers) fun _ others ho => Supply.ensures_pure ?_
    exact ⟨printableBody_append hcode.statements ho.1, List.forall_mem_cons.mpr ⟨hcode.ref, ho.2⟩⟩

theorem named_printable {fields : List (String × SchemaType)}
    (ih : ∀ field ∈ fields, ConvertsPrintable allowed field.2) :
    FieldsConvertPrintable allowed (.named fields) := by
  intro side ref h
  rw [Fields.convert]
  refine Supply.ensures_bind (convertNamed_printable side ih h) fun _ result hr => ?_
  have htype := types_print.fields (.named fields) side
  exact finish_printable hr.1 (by decide) htype (by rw [PrintableExpr]; exact hr.2)

theorem convertUnnamed_printable (side : Side) (position : Nat) {fields : List SchemaType}
    (ih : ∀ field ∈ fields, ConvertsPrintable allowed field) (h : RefPrints allowed ref) :
    (convertUnnamed side position fields ref).Ensures fun _ result =>
      PrintableBody allowed result.1 ∧ ∀ item ∈ result.2, RefPrints allowed item := by
  induction fields generalizing position with
  | nil => exact Supply.ensures_pure ⟨trivial, by simp⟩
  | cons type rest hrest =>
    obtain ⟨hfield, hothers⟩ := List.forall_mem_cons.mp ih
    rw [convertUnnamed]
    refine Supply.ensures_bind (hfield side _ (index_fragment h position)) fun _ code hcode => ?_
    refine Supply.ensures_bind (hrest (position + 1) hothers) fun _ others ho =>
      Supply.ensures_pure ?_
    exact ⟨printableBody_append hcode.statements ho.1, List.forall_mem_cons.mpr ⟨hcode.ref, ho.2⟩⟩

theorem unnamed_printable {fields : List SchemaType}
    (ih : ∀ field ∈ fields, ConvertsPrintable allowed field) :
    FieldsConvertPrintable allowed (.unnamed fields) := by
  intro side ref h
  by_cases hlength : fields.length = 1
  · obtain ⟨field, rfl⟩ := List.length_eq_one_iff.mp hlength
    have hfield := ih field (by simp)
    cases side with
    | native =>
      simp only [Fields.convert]
      exact hfield .native _ (index_fragment h 0)
    | json =>
      simp only [Fields.convert]
      refine Supply.ensures_bind (hfield .json ref h) fun _ code hcode => ?_
      exact finish_printable hcode.statements (by decide)
        (types_print.fields (.unnamed [field]) .json)
        (tuple_printable (by simpa using hcode.ref))
  · rw [convert_tuple side hlength]
    refine Supply.ensures_bind (convertUnnamed_printable side 0 ih h) fun _ result hr => ?_
    have htypes : ∀ field ∈ fields, TypesPrint field := fun field _ => types_print.types field
    exact finish_printable hr.1 (by decide) (tuple_prints (fieldTypes_print htypes side))
      (tuple_printable hr.2)

/-- Statements that end by assigning a record to a variable. -/
theorem assign_printable {statements : List Stmt} (hs : PrintableBody allowed statements)
    {result : Temp} (hr : result.category ∈ conversionCategories)
    {properties : List (String × Ref)}
    (hp : ∀ property ∈ properties, RefPrints allowed property.2) :
    PrintableBody allowed (statements ++ [.assign result (.record properties)]) := by
  refine printableBody_append hs (printableBody_single ?_)
  rw [PrintableStmt, PrintableExpr]
  exact ⟨hr, hp⟩

theorem variantCases_printable {result : Temp} (hr : result.category ∈ conversionCategories)
    (h : RefPrints allowed ref) {variants : List (String × Fields)}
    (ih : ∀ variant ∈ variants, FieldsConvertPrintable allowed variant.2) :
    (variantCases result ref variants).Ensures fun _ blocks => PrintableBlocks allowed blocks := by
  induction variants with
  | nil => exact Supply.ensures_pure trivial
  | cons variant rest hrest =>
    obtain ⟨name, fields⟩ := variant
    obtain ⟨hfields, hothers⟩ := List.forall_mem_cons.mp ih
    rw [variantCases]
    refine Supply.ensures_bind (hfields .json _ (fragment_accessor h "content"))
      fun _ content hc => ?_
    refine Supply.ensures_bind (hrest hothers) fun _ blocks hb => Supply.ensures_pure ?_
    exact ⟨assign_printable hc.statements hr (by simpa using hc.ref), hb⟩

theorem variantBranches_printable {result : Temp} (hr : result.category ∈ conversionCategories)
    (h : RefPrints allowed ref) {variants : List (String × Fields)}
    (ih : ∀ variant ∈ variants, FieldsConvertPrintable allowed variant.2) :
    (variantBranches result ref variants).Ensures fun _ blocks =>
      PrintableBlocks allowed blocks := by
  induction variants with
  | nil => exact Supply.ensures_pure trivial
  | cons variant rest hrest =>
    obtain ⟨name, fields⟩ := variant
    obtain ⟨hfields, hothers⟩ := List.forall_mem_cons.mp ih
    have htag : RefPrints allowed (.literal name) := fragment_quote name
    cases hnone : fields.isNone with
    | true =>
      obtain rfl := Fields.eq_none_of_isNone hnone
      rw [variantBranches]
      refine Supply.ensures_bind (hrest hothers) fun _ blocks hb => Supply.ensures_pure ?_
      have hempty : PrintableBody allowed [] := trivial
      exact ⟨assign_printable hempty hr (by simpa using htag), hb⟩
    | false =>
      rw [branches_content result ref name hnone]
      refine Supply.ensures_fresh_bind fun variant hvariant => ?_
      have hv : variant.category ∈ conversionCategories := by rw [hvariant]; decide
      refine Supply.ensures_bind (hfields .native _ (temp_prints hv)) fun _ content hc => ?_
      refine Supply.ensures_bind (hrest hothers) fun _ blocks hb => Supply.ensures_pure ?_
      have hread : PrintableStmt allowed (.const variant none (.ref (.property ref name))) := by
        rw [PrintableStmt, PrintableExpr]
        exact ⟨hv, by simp, fragment_accessor h name⟩
      have hbody := printableBody_append (printableBody_single hread) hc.statements
      exact ⟨assign_printable hbody hr (by simpa using ⟨htag, hc.ref⟩), hb⟩

theorem enum_printable {variants : List (String × Fields)}
    (ih : ∀ variant ∈ variants, FieldsConvertPrintable allowed variant.2) (tagging : Tagging) :
    ConvertsPrintable allowed (.enum variants tagging) := by
  intro side ref h
  rw [SchemaType.convert]
  refine Supply.ensures_fresh_bind fun result hresult => ?_
  have hr : result.category ∈ conversionCategories := by rw [hresult]; decide
  have hdeclare : PrintableStmt allowed
      (.declare result ((SchemaType.enum variants tagging).typeAt side)) := by
    rw [PrintableStmt]
    exact ⟨hr, types_print.types (.enum variants tagging) side⟩
  cases side with
  | native =>
    refine Supply.ensures_bind (variantBranches_printable hr h ih) fun _ blocks hb =>
      Supply.ensures_pure ⟨⟨hdeclare, printableBody_single ?_⟩, temp_prints hr⟩
    rw [PrintableStmt]
    exact ⟨h, hb⟩
  | json =>
    refine Supply.ensures_bind (variantCases_printable hr h ih) fun _ blocks hb =>
      Supply.ensures_pure ⟨⟨hdeclare, ?_⟩, temp_prints hr⟩
    split
    · trivial
    · refine printableBody_single ?_
      rw [PrintableStmt]
      exact ⟨fragment_accessor h "type", hb⟩

theorem printable_cases :
    SchemaCases (ConvertsPrintable allowed) (FieldsConvertPrintable allowed) where
  scalar scalar _ _ _ h := scalarForm_printable (scalar_ordinary scalar) h
  leb128 _ _ _ _ h := scalarForm_printable (scalar_ordinary .u128) h
  string _ _ _ h := pass_printable h
  byteList _ _ _ h := pass_printable h
  byteArray _ _ _ h := pass_printable h
  pair _ _ hf hs := pair_printable hf hs
  list _ sizeLength ih := list_printable ih sizeLength
  set _ sizeLength ih := set_printable ih sizeLength
  map _ _ sizeLength hk hv := map_printable hk hv sizeLength
  array _ size ih := array_printable ih size
  struct _ ih := ih
  enum _ tagging ih := enum_printable ih tagging
  named _ ih := named_printable ih
  unnamed _ ih := unnamed_printable ih
  none side _ _ := by
    cases side with
    | native => exact pass_printable (fragment_quote "no-fields")
    | json => exact pass_printable (fragment_fixed rfl rfl rfl)

end Conversions

end ContractClients
