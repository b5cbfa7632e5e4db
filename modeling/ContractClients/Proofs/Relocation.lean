import ContractClients.Proofs.Numbering

/-!
# Conversions from another counter

Code can be moved: the expression it starts from is replaced, and the numbers
of its temporaries are shifted. A conversion that starts from another counter
and another reference is the first one, moved there. What it looks like cannot
depend on either.
-/

set_option autoImplicit false

namespace ContractClients

namespace TypeScript

structure Relocation where
  input : String
  shift : Int

def Temp.relocate (place : Relocation) (temp : Temp) : Temp :=
  ⟨temp.category, temp.number + place.shift⟩

def Ref.relocate (place : Relocation) : Ref → Ref
  | .given _ => .given place.input
  | .temp name => .temp (name.relocate place)
  | .index of position => .index (of.relocate place) position
  | .property of key => .property (of.relocate place) key
  | .emptyTuple => .emptyTuple
  | .literal value => .literal value

def Source.relocate (place : Relocation) : Source → Source
  | .items of => .items (of.relocate place)
  | .values of => .values (of.relocate place)
  | .entries of => .entries (of.relocate place)

def relocateProperties (place : Relocation) (properties : List (String × Ref)) :
    List (String × Ref) :=
  properties.map fun property => (property.1, property.2.relocate place)

mutual

@[simp] def Expr.relocate (place : Relocation) : Expr → Expr
  | .ref value => .ref (value.relocate place)
  | .bigInt value => .bigInt (value.relocate place)
  | .decimal value => .decimal (value.relocate place)
  | .call function argument => .call function (argument.relocate place)
  | .tuple items => .tuple (items.map (Ref.relocate place))
  | .object properties => .object (relocateProperties place properties)
  | .record properties => .record (relocateProperties place properties)
  | .source of => .source (of.relocate place)
  | .mapItems walked item body =>
    .mapItems (walked.relocate place) (item.relocate place) (relocateBody place body)
  | .mapEntries walked key value entryType body =>
    .mapEntries (walked.relocate place) (key.relocate place) (value.relocate place) entryType
      (relocateBody place body)
  | .cast value type => .cast (value.relocate place) type
  | .construct type argument => .construct type (argument.relocate place)

@[simp] def Stmt.relocate (place : Relocation) : Stmt → Stmt
  | .const name type value => .const (name.relocate place) type (value.relocate place)
  | .declare name type => .declare (name.relocate place) type
  | .assign name value => .assign (name.relocate place) (value.relocate place)
  | .give value => .give (value.relocate place)
  | .select subject blocks => .select (subject.relocate place) (relocateBlocks place blocks)
  | .dispatch subject blocks => .dispatch (subject.relocate place) (relocateBlocks place blocks)

@[simp] def relocateBody (place : Relocation) : List Stmt → List Stmt
  | [] => []
  | statement :: rest => statement.relocate place :: relocateBody place rest

@[simp] def relocateBlocks (place : Relocation) :
    List (String × List Stmt) → List (String × List Stmt)
  | [] => []
  | (name, body) :: rest => (name, relocateBody place body) :: relocateBlocks place rest

end

def Code.relocate (place : Relocation) (code : Code) : Code :=
  ⟨relocateBody place code.statements, code.ref.relocate place⟩

theorem relocateBody_append (place : Relocation) (first second : List Stmt) :
    relocateBody place (first ++ second) =
      relocateBody place first ++ relocateBody place second := by
  induction first with
  | nil => rfl
  | cons statement rest ih =>
    rw [List.cons_append, relocateBody, relocateBody, ih, List.cons_append]

theorem relocateBody_length (place : Relocation) (body : List Stmt) :
    (relocateBody place body).length = body.length := by
  induction body with
  | nil => rfl
  | cons statement rest ih => rw [relocateBody, List.length_cons, List.length_cons, ih]

theorem relocateBlocks_isEmpty (place : Relocation) (blocks : List (String × List Stmt)) :
    (relocateBlocks place blocks).isEmpty = blocks.isEmpty := by
  cases blocks <;> rfl

theorem relocate_body (place : Relocation) (code : Code) :
    (code.relocate place).body = relocateBody place code.body := by
  rw [Code.body, Code.body, relocateBody_append]
  simp only [relocateBody, Stmt.relocate, Expr.relocate, Code.relocate]

end TypeScript

open TypeScript

section Supplies

variable {α β : Type} {place : Relocation}

def Supply.MovesTo (place : Relocation) (relocate : α → α) (x y : Supply α) : Prop :=
  ∀ n, y.run (n + place.shift) = (relocate (x.run n).1, (x.run n).2 + place.shift)

theorem moves_pure {relocate : α → α} (value : α) :
    Supply.MovesTo place relocate (pure value) (pure (relocate value)) := fun _ => rfl

/-- The rest may rely on what the values of both computations are known for. -/
theorem moves_bind_knowing {relocate : α → α} {relocate' : β → β} {x y : Supply α}
    {f g : α → Supply β} {here there : α → Prop} (hxy : Supply.MovesTo place relocate x y)
    (hx : x.Ensures fun _ value => here value) (hy : y.Ensures fun _ value => there value)
    (hf : ∀ value, here value → there (relocate value) →
      Supply.MovesTo place relocate' (f value) (g (relocate value))) :
    Supply.MovesTo place relocate' (x >>= f) (y >>= g) := by
  intro n
  have hthere := hy (n + place.shift)
  rw [hxy n] at hthere
  rw [Supply.run_bind, Supply.run_bind, hxy n]
  exact hf _ (hx n) hthere _

theorem moves_bind {relocate : α → α} {relocate' : β → β} {x y : Supply α} {f g : α → Supply β}
    (hxy : Supply.MovesTo place relocate x y)
    (hf : ∀ value, Supply.MovesTo place relocate' (f value) (g (relocate value))) :
    Supply.MovesTo place relocate' (x >>= f) (y >>= g) := by
  intro n
  rw [Supply.run_bind, Supply.run_bind, hxy n]
  exact hf _ _

theorem moves_fresh_bind {relocate : β → β} {category : String} {f g : Temp → Supply β}
    (hf : ∀ temp, Supply.MovesTo place relocate (f temp) (g (temp.relocate place))) :
    Supply.MovesTo place relocate (fresh category >>= f) (fresh category >>= g) := by
  refine moves_bind (fun n => ?_) hf
  rw [Supply.run_fresh, Supply.run_fresh, Int.add_right_comm]
  rfl

theorem moves_bindConst (category : String) (type : Option Ty) {value value' : Expr}
    (hv : value.relocate place = value') :
    Supply.MovesTo place (Code.relocate place) (bindConst category type value)
      (bindConst category type value') := by
  subst hv
  exact moves_fresh_bind fun _ => moves_pure _

theorem moves_pass (ref : Ref) :
    Supply.MovesTo place (Code.relocate place) (pure (.pass ref))
      (pure (.pass (ref.relocate place))) := moves_pure (Code.pass ref)

/-- Statements that end with a constant, which is the result. -/
theorem moves_finish (statements : List Stmt) (category : String) (type : Option Ty)
    {value value' : Expr} (hv : value.relocate place = value') :
    Supply.MovesTo place (Code.relocate place)
      (do
        let last ← bindConst category type value
        return ⟨statements ++ last.statements, last.ref⟩)
      (do
        let last ← bindConst category type value'
        return ⟨relocateBody place statements ++ last.statements, last.ref⟩) := by
  refine moves_bind (moves_bindConst category type hv) fun last => ?_
  have hlast : (⟨relocateBody place statements ++ (last.relocate place).statements,
      (last.relocate place).ref⟩ : Code) =
      Code.relocate place ⟨statements ++ last.statements, last.ref⟩ := by
    simp only [Code.relocate, relocateBody_append]
  rw [hlast]
  exact moves_pure _

end Supplies

section Conversions

variable (place : Relocation)

def Relocates (type : SchemaType) : Prop :=
  ∀ side ref, Supply.MovesTo place (Code.relocate place) (type.convert side ref)
    (type.convert side (ref.relocate place))

def FieldsRelocate (fields : Fields) : Prop :=
  ∀ side ref, Supply.MovesTo place (Code.relocate place) (fields.convert side ref)
    (fields.convert side (ref.relocate place))

variable {place}

/-- A part of a value: how it is converted, moved or not, shows whether it is
passed on. -/
theorem moves_part {type : SchemaType} (h : Relocates place type) (side : Side) {ref : Ref}
    (hr : ref ∉ fixedRefs) (hr' : ref.relocate place ∉ fixedRefs) {β : Type} {relocate : β → β}
    {f g : Code → Supply β}
    (hf : ∀ code, code.passes ref = type.transparent side →
      (code.relocate place).passes (ref.relocate place) = type.transparent side →
      Supply.MovesTo place relocate (f code) (g (code.relocate place))) :
    Supply.MovesTo place relocate (type.convert side ref >>= f)
      (type.convert side (ref.relocate place) >>= g) := by
  have hhere : ∀ ref, ref ∉ fixedRefs → (type.convert side ref).Ensures fun _ code =>
      code.passes ref = type.transparent side :=
    fun ref hr n => (elidedWhen_cases.types type side ref n).passes hr
  exact moves_bind_knowing (h side ref) (hhere ref hr) (hhere _ hr') hf

theorem scalarForm_relocates (form : ScalarForm) (side : Side) (ref : Ref) :
    Supply.MovesTo place (Code.relocate place) (form.convert side ref)
      (form.convert side (ref.relocate place)) := by
  cases form with
  | unit =>
    cases side with
    | native => exact moves_pass (.literal "Unit")
    | json => exact moves_pass .emptyTuple
  | boolean => cases side <;> exact moves_pass ref
  | machineInteger => cases side <;> exact moves_pass ref
  | longInteger =>
    cases side with
    | native => exact moves_pass ref
    | json => exact moves_bindConst "bigint" none (by rw [Expr.relocate])
  | wideInteger =>
    cases side with
    | native => exact moves_bindConst "number" none (by rw [Expr.relocate])
    | json => exact moves_bindConst "number" none (by rw [Expr.relocate])
  | domain moduleName => cases side <;> exact moves_bindConst _ none (by rw [Expr.relocate])

theorem pair_relocates {first second : SchemaType} (hf : Relocates place first)
    (hs : Relocates place second) : Relocates place (.pair first second) := by
  intro side ref
  rw [SchemaType.convert, SchemaType.convert]
  refine moves_part hf side (index_not_fixed ref 0) (index_not_fixed _ 0)
    fun firstCode hfirst hfirst' => ?_
  refine moves_part hs side (index_not_fixed ref 1) (index_not_fixed _ 1)
    fun secondCode hsecond hsecond' => ?_
  rw [Ref.relocate] at hfirst' hsecond'
  rw [hfirst, hsecond, hfirst', hsecond']
  split
  · exact moves_pass ref
  · rw [Code.relocate, Code.relocate, ← relocateBody_append]
    exact moves_finish _ "pair" _ (by rw [Expr.relocate]; rfl)

theorem item_relocates {item : SchemaType} (ih : Relocates place item) (side : Side)
    {finish finish' : Temp → Code → Supply Code}
    (hf : ∀ name code, (code.relocate place).passes (.temp (name.relocate place)) =
        code.passes (.temp name) →
      Supply.MovesTo place (Code.relocate place) (finish name code)
        (finish' (name.relocate place) (code.relocate place))) :
    Supply.MovesTo place (Code.relocate place)
      (do
        let name ← fresh "item"
        let code ← item.convert side (.temp name)
        finish name code)
      (do
        let name ← fresh "item"
        let code ← item.convert side (.temp name)
        finish' name code) := by
  refine moves_fresh_bind fun name => ?_
  refine moves_part ih side (temp_not_fixed name) (temp_not_fixed _) fun code h h' => ?_
  exact hf name code (h'.trans h.symm)

theorem mapItems_relocate (walked : Source) (item : Temp) (code : Code) :
    (Expr.mapItems walked item code.body).relocate place =
      .mapItems (walked.relocate place) (item.relocate place) (code.relocate place).body := by
  rw [Expr.relocate, relocate_body]

theorem rebuildItems_relocates (ref : Ref) {item : Temp} {code : Code} {finish : Expr → Expr}
    (h : (code.relocate place).passes (.temp (item.relocate place)) = code.passes (.temp item))
    (hf : ∀ value, (finish value).relocate place = finish (value.relocate place)) (type : Ty) :
    Supply.MovesTo place (Code.relocate place) (rebuildItems ref item code finish type)
      (rebuildItems (ref.relocate place) (item.relocate place) (code.relocate place) finish
        type) := by
  rw [rebuildItems, rebuildItems, h]
  split
  · exact moves_pass ref
  · refine moves_bindConst "list" _ ?_
    rw [hf, mapItems_relocate, Source.relocate]

theorem convertItems_relocates {item : SchemaType} (ih : Relocates place item) (side : Side)
    (ref : Ref) (finish : Expr → Expr) (type : Ty)
    (hf : ∀ value, (finish value).relocate place = finish (value.relocate place)) :
    Supply.MovesTo place (Code.relocate place) (convertItems (item.convert side) ref finish type)
      (convertItems (item.convert side) (ref.relocate place) finish type) := by
  rw [convertItems, convertItems]
  refine item_relocates ih side fun name code h => ?_
  exact rebuildItems_relocates ref h hf type

theorem mapped_relocate (walked : Source) {item : Temp} {code : Code}
    (h : (code.relocate place).passes (.temp (item.relocate place)) = code.passes (.temp item)) :
    (mapped walked item code (.source walked)).relocate place =
      mapped (walked.relocate place) (item.relocate place) (code.relocate place)
        (.source (walked.relocate place)) := by
  rw [mapped, mapped, h]
  split
  · rw [Expr.relocate]
  · exact mapItems_relocate walked item code

theorem set_relocates {item : SchemaType} (ih : Relocates place item) (sizeLength : SizeLength) :
    Relocates place (.set item sizeLength) := by
  intro side ref
  rw [SchemaType.convert, SchemaType.convert]
  refine item_relocates ih side fun name code h => ?_
  cases side with
  | native =>
    refine moves_bindConst "set" _ ?_
    rw [Expr.relocate, mapped_relocate (.items ref) h, Source.relocate]
  | json =>
    refine moves_bindConst "set" _ ?_
    rw [mapped_relocate (.values ref) h, Source.relocate]

theorem mapEntries_relocate (walked : Source) {key value : Temp} {keyCode valueCode : Code}
    (hk : (keyCode.relocate place).passes (.temp (key.relocate place)) =
      keyCode.passes (.temp key))
    (hv : (valueCode.relocate place).passes (.temp (value.relocate place)) =
      valueCode.passes (.temp value)) (type : Ty) :
    (mapEntries walked key value keyCode valueCode type).relocate place =
      mapEntries (walked.relocate place) (key.relocate place) (value.relocate place)
        (keyCode.relocate place) (valueCode.relocate place) type := by
  rw [mapEntries, mapEntries, hk, hv]
  split
  · rw [Expr.relocate]
  · rw [Expr.relocate, relocateBody_append, relocateBody_append]
    simp only [relocateBody, Stmt.relocate, Expr.relocate, Code.relocate, List.map_cons,
      List.map_nil]

theorem map_relocates {key value : SchemaType} (hk : Relocates place key)
    (hv : Relocates place value) (sizeLength : SizeLength) :
    Relocates place (.map key value sizeLength) := by
  intro side ref
  rw [SchemaType.convert, SchemaType.convert]
  refine moves_fresh_bind fun keyName => moves_fresh_bind fun valueName => ?_
  refine moves_part hk side (temp_not_fixed keyName) (temp_not_fixed _) fun keyCode h h' => ?_
  have hkey := h'.trans h.symm
  refine moves_part hv side (temp_not_fixed valueName) (temp_not_fixed _) fun valueCode h h' => ?_
  have hvalue := h'.trans h.symm
  cases side with
  | native =>
    refine moves_bindConst "map" _ ?_
    rw [Expr.relocate, mapEntries_relocate (.items ref) hkey hvalue, Source.relocate]
  | json =>
    refine moves_bindConst "map" _ ?_
    rw [mapEntries_relocate (.entries ref) hkey hvalue, Source.relocate]

theorem convertNamed_relocates (side : Side) {fields : List (String × SchemaType)}
    (ih : ∀ field ∈ fields, Relocates place field.2) (ref : Ref) :
    Supply.MovesTo place
      (fun result => (relocateBody place result.1, relocateProperties place result.2))
      (convertNamed side fields ref) (convertNamed side fields (ref.relocate place)) := by
  induction fields with
  | nil => exact moves_pure ([], [])
  | cons field rest hrest =>
    obtain ⟨name, type⟩ := field
    obtain ⟨hfield, hothers⟩ := List.forall_mem_cons.mp ih
    rw [convertNamed, convertNamed]
    refine moves_bind (hfield side (.property ref name)) fun code => ?_
    refine moves_bind (hrest hothers) fun others n => ?_
    rw [Supply.run_pure, Supply.run_pure, relocateBody_append]
    rfl

theorem named_relocates {fields : List (String × SchemaType)}
    (ih : ∀ field ∈ fields, Relocates place field.2) : FieldsRelocate place (.named fields) := by
  intro side ref
  rw [Fields.convert, Fields.convert]
  refine moves_bind (convertNamed_relocates side ih ref) fun result => ?_
  exact moves_finish result.1 "named" _ (by rw [Expr.relocate])

theorem convertUnnamed_relocates (side : Side) (position : Nat) {fields : List SchemaType}
    (ih : ∀ field ∈ fields, Relocates place field) (ref : Ref) :
    Supply.MovesTo place
      (fun result => (relocateBody place result.1, result.2.map (Ref.relocate place)))
      (convertUnnamed side position fields ref)
      (convertUnnamed side position fields (ref.relocate place)) := by
  induction fields generalizing position with
  | nil => exact moves_pure ([], [])
  | cons type rest hrest =>
    obtain ⟨hfield, hothers⟩ := List.forall_mem_cons.mp ih
    rw [convertUnnamed, convertUnnamed]
    refine moves_bind (hfield side (.index ref position)) fun code => ?_
    refine moves_bind (hrest (position + 1) hothers) fun others n => ?_
    rw [Supply.run_pure, Supply.run_pure, relocateBody_append]
    rfl

theorem unnamed_relocates {fields : List SchemaType}
    (ih : ∀ field ∈ fields, Relocates place field) : FieldsRelocate place (.unnamed fields) := by
  intro side ref
  by_cases hlength : fields.length = 1
  · obtain ⟨field, rfl⟩ := List.length_eq_one_iff.mp hlength
    have hfield := ih field (by simp)
    cases side with
    | native =>
      simp only [Fields.convert]
      exact hfield .native (.index ref 0)
    | json =>
      simp only [Fields.convert]
      refine moves_bind (hfield .json ref) fun code => ?_
      exact moves_finish code.statements "unnamed" _ (by rw [Expr.relocate]; rfl)
  · rw [convert_tuple side hlength, convert_tuple side hlength]
    refine moves_bind (convertUnnamed_relocates side 0 ih ref) fun result => ?_
    exact moves_finish result.1 "unnamed" _ (by rw [Expr.relocate])

theorem none_relocates : FieldsRelocate place .none := by
  intro side ref
  cases side with
  | native => exact moves_pass (.literal "no-fields")
  | json => exact moves_pass .emptyTuple

theorem assign_relocate (statements : List Stmt) (result : Temp)
    (properties : List (String × Ref)) :
    relocateBody place (statements ++ [.assign result (.record properties)]) =
      relocateBody place statements ++
        [.assign (result.relocate place) (.record (relocateProperties place properties))] := by
  rw [relocateBody_append]
  simp only [relocateBody, Stmt.relocate, Expr.relocate]

theorem variantCases_relocate (result : Temp) (ref : Ref) {variants : List (String × Fields)}
    (ih : ∀ variant ∈ variants, FieldsRelocate place variant.2) :
    Supply.MovesTo place (relocateBlocks place) (variantCases result ref variants)
      (variantCases (result.relocate place) (ref.relocate place) variants) := by
  induction variants with
  | nil => exact moves_pure []
  | cons variant rest hrest =>
    obtain ⟨name, fields⟩ := variant
    obtain ⟨hfields, hothers⟩ := List.forall_mem_cons.mp ih
    rw [variantCases, variantCases]
    refine moves_bind (hfields .json (.property ref "content")) fun content => ?_
    refine moves_bind (hrest hothers) fun blocks n => ?_
    rw [Supply.run_pure, Supply.run_pure, relocateBlocks, assign_relocate]
    rfl

theorem variantBranches_relocate (result : Temp) (ref : Ref)
    {variants : List (String × Fields)}
    (ih : ∀ variant ∈ variants, FieldsRelocate place variant.2) :
    Supply.MovesTo place (relocateBlocks place) (variantBranches result ref variants)
      (variantBranches (result.relocate place) (ref.relocate place) variants) := by
  induction variants with
  | nil => exact moves_pure []
  | cons variant rest hrest =>
    obtain ⟨name, fields⟩ := variant
    obtain ⟨hfields, hothers⟩ := List.forall_mem_cons.mp ih
    cases hnone : fields.isNone with
    | true =>
      obtain rfl := Fields.eq_none_of_isNone hnone
      rw [variantBranches, variantBranches]
      refine moves_bind (hrest hothers) fun blocks n => ?_
      rw [Supply.run_pure, Supply.run_pure, relocateBlocks,
        ← List.nil_append [Stmt.assign result _], assign_relocate]
      rfl
    | false =>
      rw [branches_content result ref name hnone, branches_content _ _ name hnone]
      refine moves_fresh_bind fun variant => ?_
      refine moves_bind (hfields .native (.temp variant)) fun content => ?_
      refine moves_bind (hrest hothers) fun blocks n => ?_
      rw [Supply.run_pure, Supply.run_pure, relocateBlocks, assign_relocate]
      simp only [relocateBody, Stmt.relocate, Expr.relocate]
      rfl

theorem enum_relocates {variants : List (String × Fields)}
    (ih : ∀ variant ∈ variants, FieldsRelocate place variant.2) (tagging : Tagging) :
    Relocates place (.enum variants tagging) := by
  intro side ref
  rw [SchemaType.convert, SchemaType.convert]
  refine moves_fresh_bind fun result => ?_
  cases side with
  | native =>
    refine moves_bind (variantBranches_relocate result ref ih) fun blocks n => ?_
    rw [Supply.run_pure, Supply.run_pure, Code.relocate]
    simp only [relocateBody, Stmt.relocate]
    rfl
  | json =>
    refine moves_bind (variantCases_relocate result ref ih) fun blocks n => ?_
    rw [Supply.run_pure, Supply.run_pure, Code.relocate, relocateBlocks_isEmpty]
    split
    · simp only [relocateBody, Stmt.relocate]
      rfl
    · simp only [relocateBody, Stmt.relocate]
      rfl

theorem relocation_cases : SchemaCases (Relocates place) (FieldsRelocate place) where
  scalar scalar _ side ref := scalarForm_relocates scalar.form side ref
  leb128 _ _ side ref := scalarForm_relocates .wideInteger side ref
  string _ _ ref := moves_pass ref
  byteList _ _ ref := moves_pass ref
  byteArray _ _ ref := moves_pass ref
  pair _ _ hf hs := pair_relocates hf hs
  list _ _ ih side ref := convertItems_relocates ih side ref id _ fun _ => rfl
  set _ sizeLength ih := set_relocates ih sizeLength
  map _ _ sizeLength hk hv := map_relocates hk hv sizeLength
  array _ _ ih side ref :=
    convertItems_relocates ih side ref (.cast · _) _ fun _ => by rw [Expr.relocate]
  struct _ ih := ih
  enum _ tagging ih := enum_relocates ih tagging
  named _ ih := named_relocates ih
  unnamed _ ih := unnamed_relocates ih
  none := none_relocates

end Conversions

theorem convert_relocated (type : SchemaType) (side : Side) (input other : String) (n m : Int) :
    ((type.convert side (.given other)).run m).1 =
      ((type.convert side (.given input)).run n).1.relocate ⟨other, m - n⟩ := by
  have hmoves : Relocates ⟨other, m - n⟩ type := relocation_cases.types type
  have hmoved := hmoves side (.given input) n
  have hcounter : n + (m - n) = m := by omega
  rw [hcounter] at hmoved
  exact congrArg Prod.fst hmoved

/-- The names that a conversion asks for are settled by its type and its side,
up to the counter they are numbered from; compiling a type asks for none. From
another counter and another reference comes the same code, moved there: with
as many statements, and rebuilding the same parts. -/
theorem numbering_reproducible (type : SchemaType) (side : Side) :
    (∀ (session : Session) (n : Int),
      ((Operation.compile (.type type)).perform session).issued n = [] ∧
        (((Operation.compile (.type type)).perform session).run n).2 = n) ∧
    (∀ (session : Session) (position : Nat) (input : String) (n : Int),
      session.mappings[position]? = some (.type type) →
        (((Operation.convert position side input).perform session).issued n).map Temp.text =
          (type.requests side).mapIdx (fun k category => category ++ toString (n + k)) ∧
        (((Operation.convert position side input).perform session).run n).2 =
          n + (type.requests side).length) ∧
    ∀ (input other : String) (n m indent width : Int),
      ((type.convert side (.given other)).run m).1 =
        ((type.convert side (.given input)).run n).1.relocate ⟨other, m - n⟩ ∧
      (((type.convert side (.given other)).run m).1.render width).length =
        (((type.convert side (.given input)).run n).1.render indent).length ∧
      (Rebuilds (.given other) type ((type.convert side (.given other)).run m).1 ↔
        Rebuilds (.given input) type ((type.convert side (.given input)).run n).1) := by
  refine ⟨fun session n => ⟨rfl, rfl⟩, fun session position input n h => ?_,
    fun input other n m indent width => ?_⟩
  · rw [Supply.counter_eq, perform_issued h, numbered_texts, numbered_length]
    exact ⟨rfl, rfl⟩
  · have hmoved := convert_relocated type side input other n m
    refine ⟨hmoved, ?_, ?_⟩
    · rw [hmoved, Code.render, Code.render, List.length_map, List.length_map]
      exact relocateBody_length _ _
    · exact (rebuilds_iff type side (.given other) m).trans
        (rebuilds_iff type side (.given input) n).symm

/-- A list of enums, whose results are named before their contents, with a
field that is passed on and one that is not. -/
def shipments : SchemaType :=
  .list (.enum [("lost", .none), ("at depot", .named [("days", .list (.scalar .u8 .u8) .u8),
    ("weight", .scalar .u128 .u8)])] .byPosition) .u32

theorem shipments_numbered :
    ((((Operation.convert 0 .native "list7").perform ⟨-1, [.type shipments], []⟩).issued 7).map
        Temp.text =
      ["item7", "match8", "variant9", "item10", "number11", "named12", "list13"]) ∧
    (((Operation.convert 0 .native "list7").perform ⟨-1, [.type shipments], []⟩).run 7).2 = 14 := by
  have hnames := (numbering_reproducible shipments .native).2.1 ⟨-1, [.type shipments], []⟩ 0
    "list7" 7 rfl
  exact ⟨hnames.1, hnames.2⟩

end ContractClients
