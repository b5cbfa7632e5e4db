import ContractClients.Proofs.Elision
import ContractClients.Proofs.Session

/-!
# The names that a conversion asks for

A conversion asks for names in an order that its type and its side settle: the
categories are known before the code is written, from whatever counter, with
whatever reference and width. Elision settles some of them: what is passed on
needs no name for its result.
-/

set_option autoImplicit false

namespace ContractClients

open TypeScript

def ScalarForm.requests : Side → ScalarForm → List String
  | .json, .longInteger => ["bigint"]
  | _, .wideInteger => ["number"]
  | _, .domain moduleName => [domainCategory moduleName]
  | _, _ => []

def resultRequest (transparent : Bool) (category : String) : List String :=
  if transparent then [] else [category]

mutual

@[simp] def SchemaType.requests (side : Side) : SchemaType → List String
  | .scalar scalar _ => scalar.form.requests side
  | .leb128 .. => ScalarForm.wideInteger.requests side
  | .string _ | .byteList _ | .byteArray _ => []
  | .pair first second =>
    first.requests side ++ (second.requests side ++
      resultRequest (first.transparent side && second.transparent side) "pair")
  | .list item _ | .array item _ =>
    "item" :: (item.requests side ++ resultRequest (item.transparent side) "list")
  | .set item _ => "item" :: (item.requests side ++ ["set"])
  | .map key value _ => "key" :: "value" :: (key.requests side ++ (value.requests side ++ ["map"]))
  | .struct fields => fields.requests side
  | .enum variants _ => "match" :: variantRequests side variants

@[simp] def Fields.requests (side : Side) : Fields → List String
  | .named fields => namedRequests side fields ++ ["named"]
  | .unnamed [field] =>
    match side with
    | .native => field.requests side
    | .json => field.requests side ++ ["unnamed"]
  | .unnamed fields => unnamedRequests side fields ++ ["unnamed"]
  | .none => []

@[simp] def namedRequests (side : Side) : List (String × SchemaType) → List String
  | [] => []
  | (_, type) :: rest => type.requests side ++ namedRequests side rest

@[simp] def unnamedRequests (side : Side) : List SchemaType → List String
  | [] => []
  | type :: rest => type.requests side ++ unnamedRequests side rest

@[simp] def variantRequests (side : Side) : List (String × Fields) → List String
  | [] => []
  | (_, fields) :: rest =>
    (match side with
      | .json => fields.requests .json
      | .native => if fields.isNone then [] else "variant" :: fields.requests .native) ++
      variantRequests side rest

end

def numbered (n : Int) : List String → List Temp
  | [] => []
  | category :: rest => ⟨category, n⟩ :: numbered (n + 1) rest

theorem numbered_texts (n : Int) (categories : List String) :
    (numbered n categories).map Temp.text =
      categories.mapIdx fun k category => category ++ toString (n + k) := by
  induction categories generalizing n with
  | nil => rfl
  | cons category rest ih =>
    have hnext : ∀ k : Nat, n + 1 + (k : Int) = n + ((k + 1 : Nat) : Int) := by omega
    rw [numbered, List.map_cons, ih, List.mapIdx_cons]
    simp only [hnext, Temp.text, Int.natCast_zero, Int.add_zero]

theorem numbered_length (n : Int) (categories : List String) :
    (numbered n categories).length = categories.length := by
  induction categories generalizing n with
  | nil => rfl
  | cons category rest ih => rw [numbered, List.length_cons, List.length_cons, ih]

theorem Supply.issued_eq_numbered {α : Type} (x : Supply α) (n : Int) :
    x.issued n = numbered n ((x.issued n).map Temp.category) := by
  induction x generalizing n with
  | done value => rfl
  | ask category next ih =>
    rw [issued, List.map_cons, numbered]
    exact congrArg (_ :: ·) (ih ⟨category, n⟩ (n + 1))

def Supply.Asks {α : Type} (x : Supply α) (categories : List String) (post : α → Prop) : Prop :=
  x.Ensures fun issued value => issued.map Temp.category = categories ∧ post value

section Asking

variable {α β : Type} {categories later : List String}

theorem asks_pure {post : α → Prop} {value : α} (h : post value) :
    (pure value : Supply α).Asks [] post := Supply.ensures_pure ⟨rfl, h⟩

theorem asks_bind {x : Supply α} {f : α → Supply β} {mid : α → Prop} {post : β → Prop}
    (hx : x.Asks categories mid) (hf : ∀ value, mid value → (f value).Asks later post) :
    (x >>= f).Asks (categories ++ later) post := by
  refine Supply.ensures_bind hx fun issued value h => ?_
  refine Supply.ensures_imp (hf value h.2) fun issued' result h' => ?_
  exact ⟨by rw [List.map_append, h.1, h'.1], h'.2⟩

theorem asks_fresh_bind {category : String} {f : Temp → Supply β} {post : β → Prop}
    (hf : ∀ temp, (f temp).Asks categories post) :
    (fresh category >>= f).Asks (category :: categories) post := by
  refine Supply.ensures_fresh_bind fun temp ht => ?_
  refine Supply.ensures_imp (hf temp) fun issued result h => ?_
  exact ⟨by rw [List.map_cons, ht, h.1], h.2⟩

theorem asks_bindConst (category : String) (type : Option Ty) (value : Expr) :
    (bindConst category type value).Asks [category] fun _ => True :=
  fun _ => ⟨rfl, trivial⟩

theorem asks_finish (statements : List Stmt) (category : String) (type : Option Ty)
    (value : Expr) :
    (do
      let last ← bindConst category type value
      return ⟨statements ++ last.statements, last.ref⟩ : Supply Code).Asks [category]
        fun _ => True :=
  fun _ => ⟨rfl, trivial⟩

end Asking

section Conversions

def ConvertsAsking (type : SchemaType) : Prop :=
  ∀ side ref, (type.convert side ref).Asks (type.requests side) fun _ => True

def FieldsConvertAsking (fields : Fields) : Prop :=
  ∀ side ref, (fields.convert side ref).Asks (fields.requests side) fun _ => True

/-- What a conversion comes to goes with what it asks for. -/
theorem ConvertsAsking.elidedWhen {type : SchemaType} (h : ConvertsAsking type) (side : Side)
    (ref : Ref) :
    (type.convert side ref).Asks (type.requests side)
      fun code => ElidedWhen (type.transparent side) ref code :=
  fun n => ⟨(h side ref n).1, elidedWhen_cases.types type side ref n⟩

theorem scalarForm_asks (form : ScalarForm) (side : Side) (ref : Ref) :
    (form.convert side ref).Asks (form.requests side) fun _ => True := by
  cases form <;> cases side <;> exact fun _ => ⟨rfl, trivial⟩

theorem pair_asks {first second : SchemaType} (hf : ConvertsAsking first)
    (hs : ConvertsAsking second) : ConvertsAsking (.pair first second) := by
  intro side ref
  rw [SchemaType.convert, SchemaType.requests]
  refine asks_bind (hf.elidedWhen side _) fun firstCode hfirst => ?_
  refine asks_bind (hs.elidedWhen side _) fun secondCode hsecond => ?_
  rw [hfirst.passes (index_not_fixed ref 0), hsecond.passes (index_not_fixed ref 1),
    resultRequest]
  split
  · exact asks_pure trivial
  · exact asks_finish _ "pair" _ _

theorem convertItems_asks {item : SchemaType} (ih : ConvertsAsking item) (side : Side) (ref : Ref)
    (finish : Expr → Expr) (type : Ty) :
    (convertItems (item.convert side) ref finish type).Asks
      ("item" :: (item.requests side ++ resultRequest (item.transparent side) "list"))
      fun _ => True := by
  rw [convertItems]
  refine asks_fresh_bind fun name => ?_
  refine asks_bind (ih.elidedWhen side (.temp name)) fun code hcode => ?_
  rw [rebuildItems, hcode.passes (temp_not_fixed name), resultRequest]
  split
  · exact asks_pure trivial
  · exact asks_bindConst "list" _ _

theorem set_asks {item : SchemaType} (ih : ConvertsAsking item) (sizeLength : SizeLength) :
    ConvertsAsking (.set item sizeLength) := by
  intro side ref
  rw [SchemaType.convert, SchemaType.requests]
  refine asks_fresh_bind fun name => asks_bind (ih side (.temp name)) fun code _ => ?_
  cases side <;> exact asks_bindConst "set" _ _

theorem map_asks {key value : SchemaType} (hk : ConvertsAsking key) (hv : ConvertsAsking value)
    (sizeLength : SizeLength) : ConvertsAsking (.map key value sizeLength) := by
  intro side ref
  rw [SchemaType.convert, SchemaType.requests]
  refine asks_fresh_bind fun keyName => asks_fresh_bind fun valueName => ?_
  refine asks_bind (hk side (.temp keyName)) fun keyCode _ => ?_
  refine asks_bind (hv side (.temp valueName)) fun valueCode _ => ?_
  cases side <;> exact asks_bindConst "map" _ _

theorem convertNamed_asks (side : Side) {fields : List (String × SchemaType)}
    (ih : ∀ field ∈ fields, ConvertsAsking field.2) (ref : Ref) :
    (convertNamed side fields ref).Asks (namedRequests side fields) fun _ => True := by
  induction fields with
  | nil => exact asks_pure trivial
  | cons field rest hrest =>
    obtain ⟨name, type⟩ := field
    obtain ⟨hfield, hothers⟩ := List.forall_mem_cons.mp ih
    rw [convertNamed, namedRequests, ← List.append_nil (namedRequests side rest)]
    refine asks_bind (hfield side (.property ref name)) fun code _ => ?_
    exact asks_bind (hrest hothers) fun others _ => asks_pure trivial

theorem named_asks {fields : List (String × SchemaType)}
    (ih : ∀ field ∈ fields, ConvertsAsking field.2) : FieldsConvertAsking (.named fields) := by
  intro side ref
  rw [Fields.convert, Fields.requests]
  exact asks_bind (convertNamed_asks side ih ref) fun result _ => asks_finish result.1 "named" _ _

theorem convertUnnamed_asks (side : Side) (position : Nat) {fields : List SchemaType}
    (ih : ∀ field ∈ fields, ConvertsAsking field) (ref : Ref) :
    (convertUnnamed side position fields ref).Asks (unnamedRequests side fields)
      fun _ => True := by
  induction fields generalizing position with
  | nil => exact asks_pure trivial
  | cons type rest hrest =>
    obtain ⟨hfield, hothers⟩ := List.forall_mem_cons.mp ih
    rw [convertUnnamed, unnamedRequests, ← List.append_nil (unnamedRequests side rest)]
    refine asks_bind (hfield side (.index ref position)) fun code _ => ?_
    exact asks_bind (hrest (position + 1) hothers) fun others _ => asks_pure trivial

theorem requests_tuple (side : Side) {fields : List SchemaType} (h : fields.length ≠ 1) :
    Fields.requests side (.unnamed fields) = unnamedRequests side fields ++ ["unnamed"] := by
  match fields, h with
  | [], _ => rw [Fields.requests]; simp
  | _ :: _ :: _, _ => rw [Fields.requests]; simp

theorem unnamed_asks {fields : List SchemaType} (ih : ∀ field ∈ fields, ConvertsAsking field) :
    FieldsConvertAsking (.unnamed fields) := by
  intro side ref
  by_cases hlength : fields.length = 1
  · obtain ⟨field, rfl⟩ := List.length_eq_one_iff.mp hlength
    have hfield := ih field (by simp)
    cases side with
    | native =>
      simp only [Fields.convert, Fields.requests]
      exact hfield .native (.index ref 0)
    | json =>
      simp only [Fields.convert, Fields.requests]
      exact asks_bind (hfield .json ref) fun code _ => asks_finish code.statements "unnamed" _ _
  · rw [convert_tuple side hlength, requests_tuple side hlength]
    exact asks_bind (convertUnnamed_asks side 0 ih ref) fun result _ =>
      asks_finish result.1 "unnamed" _ _

theorem variantCases_ask (result : Temp) (ref : Ref) {variants : List (String × Fields)}
    (ih : ∀ variant ∈ variants, FieldsConvertAsking variant.2) :
    (variantCases result ref variants).Asks (variantRequests .json variants) fun _ => True := by
  induction variants with
  | nil => exact asks_pure trivial
  | cons variant rest hrest =>
    obtain ⟨name, fields⟩ := variant
    obtain ⟨hfields, hothers⟩ := List.forall_mem_cons.mp ih
    rw [variantCases, variantRequests, ← List.append_nil (variantRequests .json rest)]
    refine asks_bind (hfields .json (.property ref "content")) fun content _ => ?_
    exact asks_bind (hrest hothers) fun blocks _ => asks_pure trivial

theorem variantBranches_ask (result : Temp) (ref : Ref) {variants : List (String × Fields)}
    (ih : ∀ variant ∈ variants, FieldsConvertAsking variant.2) :
    (variantBranches result ref variants).Asks (variantRequests .native variants)
      fun _ => True := by
  induction variants with
  | nil => exact asks_pure trivial
  | cons variant rest hrest =>
    obtain ⟨name, fields⟩ := variant
    obtain ⟨hfields, hothers⟩ := List.forall_mem_cons.mp ih
    rw [variantRequests, ← List.append_nil (variantRequests .native rest)]
    cases hnone : fields.isNone with
    | true =>
      obtain rfl := Fields.eq_none_of_isNone hnone
      rw [variantBranches, if_pos rfl, List.nil_append]
      exact asks_bind (hrest hothers) fun blocks _ => asks_pure trivial
    | false =>
      rw [branches_content result ref name hnone]
      refine asks_fresh_bind fun variant => ?_
      refine asks_bind (hfields .native (.temp variant)) fun content _ => ?_
      exact asks_bind (hrest hothers) fun blocks _ => asks_pure trivial

theorem enum_asks {variants : List (String × Fields)}
    (ih : ∀ variant ∈ variants, FieldsConvertAsking variant.2) (tagging : Tagging) :
    ConvertsAsking (.enum variants tagging) := by
  intro side ref
  rw [SchemaType.convert, SchemaType.requests, ← List.append_nil (variantRequests side variants)]
  refine asks_fresh_bind fun result => ?_
  cases side with
  | native => exact asks_bind (variantBranches_ask result ref ih) fun _ _ => asks_pure trivial
  | json => exact asks_bind (variantCases_ask result ref ih) fun _ _ => asks_pure trivial

theorem asking_cases : SchemaCases ConvertsAsking FieldsConvertAsking where
  scalar scalar _ side ref := scalarForm_asks scalar.form side ref
  leb128 _ _ side ref := scalarForm_asks .wideInteger side ref
  string _ _ _ := asks_pure trivial
  byteList _ _ _ := asks_pure trivial
  byteArray _ _ _ := asks_pure trivial
  pair _ _ hf hs := pair_asks hf hs
  list _ _ ih side ref := convertItems_asks ih side ref _ _
  set _ sizeLength ih := set_asks ih sizeLength
  map _ _ sizeLength hk hv := map_asks hk hv sizeLength
  array _ _ ih side ref := convertItems_asks ih side ref _ _
  struct _ ih := ih
  enum _ tagging ih := enum_asks ih tagging
  named _ ih := named_asks ih
  unnamed _ ih := unnamed_asks ih
  none side _ := by cases side <;> exact asks_pure trivial

end Conversions

theorem convert_issued (type : SchemaType) (side : Side) (ref : Ref) (n : Int) :
    (type.convert side ref).issued n = numbered n (type.requests side) := by
  rw [Supply.issued_eq_numbered, (asking_cases.types type side ref n).1]

/-- A conversion in a session asks for what the conversion asks for. -/
theorem perform_issued {session : Session} {position : Nat} {type : SchemaType}
    (h : session.mappings[position]? = some (.type type)) (side : Side) (input : String)
    (n : Int) :
    ((Operation.convert position side input).perform session).issued n =
      numbered n (type.requests side) := by
  rw [Operation.perform, h]
  simp only [Mapping.convert, Supply.issued_bind, Supply.issued_pure, List.append_nil]
  exact convert_issued type side (.given input) n

end ContractClients
