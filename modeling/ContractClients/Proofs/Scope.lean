import ContractClients.Proofs.ConvertShapes

/-!
# Scopes of generated code

A name may stand in an expression where it is in scope: bound earlier in the
same block or in one around it, or a parameter of an arrow around it. The code
of a conversion keeps to that, and the names it binds, at any depth, are among
those it was handed out, each bound once and in their order. What it refers to
in the end is its input or a component of it, a fixed value, or a temporary
that one of its outermost statements declares.
-/

set_option autoImplicit false

namespace ContractClients

namespace TypeScript

def Ref.root? : Ref → Option String
  | .given text => some (rootName text)
  | .temp name => some name.text
  | .index of _ | .property of _ => of.root?
  | .emptyTuple | .literal _ => none

def Ref.InScope (scope : List String) (ref : Ref) : Prop := ∀ name ∈ ref.root?, name ∈ scope

def Ref.first (ref : Ref) : Nat → Ref
  | 0 => ref
  | depth + 1 => (Ref.index ref 0).first depth

def Source.ref : Source → Ref
  | .items of | .values of | .entries of => of

def Stmt.declares : Stmt → List Temp
  | .const name _ _ | .declare name _ => [name]
  | _ => []

def declared (statements : List Stmt) : List Temp := statements.flatMap Stmt.declares

mutual

@[simp] def Expr.InScope (scope : List String) : Expr → Prop
  | .ref value | .bigInt value | .decimal value | .call _ value => value.InScope scope
  | .tuple items => ∀ item ∈ items, item.InScope scope
  | .object properties | .record properties => ∀ property ∈ properties, property.2.InScope scope
  | .source of => of.ref.InScope scope
  | .mapItems walked item body =>
    walked.ref.InScope scope ∧ bodyInScope (scope ++ [item.text]) body
  | .mapEntries walked key value _ body =>
    walked.ref.InScope scope ∧ bodyInScope (scope ++ [key.text, value.text]) body
  | .cast value _ | .construct _ value => value.InScope scope

@[simp] def Stmt.InScope (scope : List String) : Stmt → Prop
  | .const _ _ value | .give value => value.InScope scope
  | .declare .. => True
  | .assign name value => name.text ∈ scope ∧ value.InScope scope
  | .select subject blocks | .dispatch subject blocks =>
    subject.InScope scope ∧ blocksInScope scope blocks

@[simp] def bodyInScope (scope : List String) : List Stmt → Prop
  | [] => True
  | statement :: rest => statement.InScope scope ∧
      bodyInScope (scope ++ statement.declares.map Temp.text) rest

@[simp] def blocksInScope (scope : List String) : List (String × List Stmt) → Prop
  | [] => True
  | (_, body) :: rest => bodyInScope scope body ∧ blocksInScope scope rest

end

mutual

@[simp] def Expr.binders : Expr → List Temp
  | .mapItems _ item body => item :: bodyBinders body
  | .mapEntries _ key value _ body => key :: value :: bodyBinders body
  | .cast value _ | .construct _ value => value.binders
  | _ => []

@[simp] def Stmt.binders : Stmt → List Temp
  | .const name _ value => value.binders ++ [name]
  | .declare name _ => [name]
  | .assign _ value | .give value => value.binders
  | .select _ blocks | .dispatch _ blocks => blockBinders blocks

@[simp] def bodyBinders : List Stmt → List Temp
  | [] => []
  | statement :: rest => statement.binders ++ bodyBinders rest

@[simp] def blockBinders : List (String × List Stmt) → List Temp
  | [] => []
  | (_, body) :: rest => bodyBinders body ++ blockBinders rest

end

theorem Ref.InScope.append {scope : List String} {ref : Ref} (h : ref.InScope scope)
    (names : List String) : ref.InScope (scope ++ names) :=
  fun name hm => List.mem_append_left names (h name hm)

theorem inScope_temp {scope : List String} {temp : Temp} (h : temp.text ∈ scope) :
    (Ref.temp temp).InScope scope := by
  intro name hm
  obtain rfl : temp.text = name := by simpa [Ref.root?] using hm
  exact h

def scopeAfter (scope : List String) (statements : List Stmt) : List String :=
  scope ++ (declared statements).map Temp.text

theorem Ref.InScope.after {scope : List String} {ref : Ref} (h : ref.InScope scope)
    (statements : List Stmt) : ref.InScope (scopeAfter scope statements) := h.append _

theorem scopeAfter_append (scope : List String) (first second : List Stmt) :
    scopeAfter scope (first ++ second) = scopeAfter (scopeAfter scope first) second := by
  simp [scopeAfter, declared]

theorem bodyInScope_append (scope : List String) (first second : List Stmt) :
    bodyInScope scope (first ++ second) ↔
      bodyInScope scope first ∧ bodyInScope (scopeAfter scope first) second := by
  induction first generalizing scope with
  | nil => simp [bodyInScope, scopeAfter, declared]
  | cons statement rest ih =>
    have hscope : scopeAfter scope (statement :: rest) =
        scopeAfter (scope ++ statement.declares.map Temp.text) rest := by
      simp [scopeAfter, declared]
    simp only [List.cons_append, bodyInScope, ih, hscope, and_assoc]

theorem bodyBinders_append (first second : List Stmt) :
    bodyBinders (first ++ second) = bodyBinders first ++ bodyBinders second := by
  induction first with
  | nil => rfl
  | cons statement rest ih => rw [List.cons_append, bodyBinders, bodyBinders, ih, List.append_assoc]

end TypeScript

open TypeScript

/-- Statements that use their input, what is in scope with it and what they
bind themselves, and that bind names handed out to them, in order. -/
structure Scoped (ref : Ref) (issued : List Temp) (statements : List Stmt)
    (results : List Ref) : Prop where
  known : ∀ temp ∈ issued, temp.category ∈ conversionCategories
  body : ∀ scope, ref.InScope scope → bodyInScope scope statements
  results : ∀ scope, ref.InScope scope →
    ∀ result ∈ results, result.InScope (scopeAfter scope statements)
  binders : (bodyBinders statements).Sublist issued

theorem scoped_nil {ref : Ref} {issued : List Temp} {results : List Ref}
    (hk : ∀ temp ∈ issued, temp.category ∈ conversionCategories)
    (hr : ∀ scope, ref.InScope scope → ∀ result ∈ results, result.InScope scope) :
    Scoped ref issued [] results where
  known := hk
  body _ _ := trivial
  results scope hs result hm := (hr scope hs result hm).append _
  binders := List.nil_sublist issued

theorem Scoped.of_root {ref other : Ref} {issued : List Temp} {statements : List Stmt}
    {results : List Ref} (h : Scoped other issued statements results)
    (hr : other.root? = ref.root?) : Scoped ref issued statements results := by
  have hscope : ∀ scope, ref.InScope scope → other.InScope scope := by
    intro scope hs
    rw [Ref.InScope, hr]
    exact hs
  exact ⟨h.known, fun scope hs => h.body scope (hscope scope hs),
    fun scope hs => h.results scope (hscope scope hs), h.binders⟩

theorem Scoped.append {ref : Ref} {issued later : List Temp} {first second : List Stmt}
    {results others : List Ref} (hf : Scoped ref issued first results)
    (hs : Scoped ref later second others) :
    Scoped ref (issued ++ later) (first ++ second) (results ++ others) where
  known := List.forall_mem_append.mpr ⟨hf.known, hs.known⟩
  body scope h :=
    (bodyInScope_append scope first second).mpr ⟨hf.body scope h, hs.body _ (h.after first)⟩
  results scope h := by
    rw [scopeAfter_append]
    refine List.forall_mem_append.mpr ⟨fun result hm => ?_, hs.results _ (h.after first)⟩
    exact (hf.results scope h result hm).append _
  binders := by
    rw [bodyBinders_append]
    exact hf.binders.append hs.binders

/-- Statements whose input is what those before them computed. -/
theorem Scoped.trans {ref middle : Ref} {issued later : List Temp} {first second : List Stmt}
    {results : List Ref} (hf : Scoped ref issued first [middle])
    (hs : Scoped middle later second results) :
    Scoped ref (issued ++ later) (first ++ second) results where
  known := List.forall_mem_append.mpr ⟨hf.known, hs.known⟩
  body scope h :=
    (bodyInScope_append scope first second).mpr
      ⟨hf.body scope h, hs.body _ (hf.results scope h middle (by simp))⟩
  results scope h := by
    rw [scopeAfter_append]
    exact hs.results _ (hf.results scope h middle (by simp))
  binders := by
    rw [bodyBinders_append]
    exact hf.binders.append hs.binders

/-- Statements, then a constant whose value may bind names of its own. -/
theorem Scoped.const {ref : Ref} {issued inner : List Temp} {statements : List Stmt}
    {results : List Ref} (h : Scoped ref issued statements results) {temp : Temp}
    (type : Option Ty) {value : Expr}
    (hk : ∀ temp ∈ inner, temp.category ∈ conversionCategories)
    (hc : temp.category ∈ conversionCategories) (hb : value.binders.Sublist inner)
    (hv : ∀ scope, ref.InScope scope → (∀ result ∈ results, result.InScope scope) →
      value.InScope scope) :
    Scoped ref (issued ++ (inner ++ [temp])) (statements ++ [.const temp type value])
      [.temp temp] where
  known := by
    have hlast : ∀ other ∈ [temp], other.category ∈ conversionCategories := by simpa using hc
    exact List.forall_mem_append.mpr ⟨h.known, List.forall_mem_append.mpr ⟨hk, hlast⟩⟩
  body scope hs :=
    (bodyInScope_append scope _ _).mpr
      ⟨h.body scope hs, hv _ (hs.after statements) (h.results scope hs), trivial⟩
  results scope hs := by
    intro result hm
    obtain rfl := List.mem_singleton.mp hm
    exact inScope_temp (by simp [scopeAfter, declared, Stmt.declares])
  binders := by
    rw [bodyBinders_append]
    refine h.binders.append ?_
    simpa [bodyBinders, Stmt.binders] using hb

theorem scoped_const {ref : Ref} {inner : List Temp} {temp : Temp} (type : Option Ty)
    {value : Expr} (hk : ∀ temp ∈ inner, temp.category ∈ conversionCategories)
    (hc : temp.category ∈ conversionCategories) (hb : value.binders.Sublist inner)
    (hv : ∀ scope, ref.InScope scope → value.InScope scope) :
    Scoped ref (inner ++ [temp]) [.const temp type value] [.temp temp] := by
  have hnil : Scoped ref [] [] [] := scoped_nil (by simp) (by simp)
  exact hnil.const type hk hc hb fun scope h _ => hv scope h

inductive ResultOf (ref : Ref) (issued : List Temp) (code : Code) : Prop where
  | input (depth : Nat) (h : code.ref = ref.first depth)
  | fixed (h : code.ref ∈ [.emptyTuple, .literal "Unit", .literal "no-fields"])
  | declared (temp : Temp) (hi : temp ∈ issued) (hr : code.ref = .temp temp)
      (hd : temp ∈ declared code.statements)

structure WellScoped (ref : Ref) (issued : List Temp) (code : Code) : Prop where
  within : Scoped ref issued code.statements [code.ref]
  result : ResultOf ref issued code

section Conversions

variable {side : Side} {ref : Ref}

theorem bindConst_ensures (category : String) (type : Option Ty) (value : Expr) :
    (bindConst category type value).Ensures fun issued code =>
      ∃ temp, temp.category = category ∧ issued = [temp] ∧
        code = ⟨[.const temp type value], .temp temp⟩ :=
  fun n => ⟨⟨category, n⟩, rfl, rfl, rfl⟩

theorem wellScoped_pass {issued : List Temp}
    (hk : ∀ temp ∈ issued, temp.category ∈ conversionCategories) :
    WellScoped ref issued (.pass ref) where
  within := scoped_nil hk fun scope h result hm => by
    obtain rfl := List.mem_singleton.mp hm
    exact h
  result := .input 0 rfl

theorem wellScoped_fixed {value : Ref}
    (hv : value ∈ [.emptyTuple, .literal "Unit", .literal "no-fields"]) :
    WellScoped ref [] (.pass value) where
  within := scoped_nil (by simp) fun scope _ result hm => by
    obtain rfl := List.mem_singleton.mp hm
    simp only [List.mem_cons, List.not_mem_nil, or_false] at hv
    rcases hv with rfl | rfl | rfl <;> simp [Ref.InScope, Ref.root?]
  result := .fixed hv

/-- A constant at the end of some code is what the code refers to. -/
theorem wellScoped_last {issued : List Temp} {statements : List Stmt} {temp : Temp}
    {type : Option Ty} {value : Expr}
    (h : Scoped ref issued (statements ++ [.const temp type value]) [.temp temp])
    (hi : temp ∈ issued) :
    WellScoped ref issued ⟨statements ++ [.const temp type value], .temp temp⟩ where
  within := h
  result := .declared temp hi rfl (by simp [declared, Stmt.declares])

/-- Code that is a constant built from the results of some statements. -/
theorem finish_ensures {issued : List Temp} {statements : List Stmt} {results : List Ref}
    (h : Scoped ref issued statements results) {category : String} {type : Option Ty}
    {value : Expr} (hc : category ∈ conversionCategories) (hb : value.binders = [])
    (hv : ∀ scope, (∀ result ∈ results, result.InScope scope) → value.InScope scope) :
    (do
      let last ← bindConst category type value
      return (⟨statements ++ last.statements, last.ref⟩ : Code)).Ensures
      fun later code => WellScoped ref (issued ++ later) code := by
  have hinner : value.binders.Sublist [] := by rw [hb]
  refine Supply.ensures_bind (bindConst_ensures category type value) ?_
  rintro later last ⟨temp, rfl, rfl, rfl⟩
  have hconst := h.const type (by simp) hc hinner fun scope _ hr => hv scope hr
  exact Supply.ensures_pure (wellScoped_last hconst (by simp))

theorem single_ensures {inner : List Temp} {category : String} {type : Option Ty} {value : Expr}
    (hk : ∀ temp ∈ inner, temp.category ∈ conversionCategories)
    (hc : category ∈ conversionCategories) (hb : value.binders.Sublist inner)
    (hv : ∀ scope, ref.InScope scope → value.InScope scope) :
    (bindConst category type value).Ensures fun later code =>
      WellScoped ref (inner ++ later) code := by
  refine Supply.ensures_imp (bindConst_ensures category type value) ?_
  rintro later code ⟨temp, rfl, rfl, rfl⟩
  have hconst : Scoped ref (inner ++ [temp]) ([] ++ [.const temp type value]) [.temp temp] :=
    scoped_const type hk hc hb hv
  exact wellScoped_last hconst (by simp)

theorem scalarForm_scoped (form : ScalarForm) (hk : form.Known) :
    (form.convert side ref).Ensures (WellScoped ref) := by
  have hpass : (pure (.pass ref) : Supply Code).Ensures (WellScoped ref) :=
    Supply.ensures_pure (wellScoped_pass (by simp))
  have hconst : ∀ category ∈ conversionCategories, ∀ value : Expr, value.binders = [] →
      (∀ scope, ref.InScope scope → value.InScope scope) →
      (bindConst category none value).Ensures (WellScoped ref) := by
    intro category hc value hb hv
    have hinner : value.binders.Sublist [] := by rw [hb]
    exact single_ensures (by simp) hc hinner hv
  cases form with
  | unit =>
    cases side with
    | native => exact Supply.ensures_pure (wellScoped_fixed (by simp))
    | json => exact Supply.ensures_pure (wellScoped_fixed (by simp))
  | boolean => cases side <;> exact hpass
  | machineInteger => cases side <;> exact hpass
  | longInteger =>
    cases side with
    | native => exact hpass
    | json => exact hconst "bigint" (by decide) _ rfl fun _ h => h
  | wideInteger =>
    cases side with
    | native => exact hconst "number" (by decide) _ rfl fun _ h => h
    | json => exact hconst "number" (by decide) _ rfl fun _ h => h
  | domain moduleName =>
    have hc := hk moduleName rfl
    cases side with
    | native => exact hconst _ hc _ rfl fun _ h => h
    | json => exact hconst _ hc _ rfl fun _ h => h

def ConvertsInScope (type : SchemaType) : Prop :=
  ∀ side ref, (type.convert side ref).Ensures (WellScoped ref)

def FieldsConvertInScope (fields : Fields) : Prop :=
  ∀ side ref, (fields.convert side ref).Ensures (WellScoped ref)

theorem pair_scoped {first second : SchemaType} (hf : ConvertsInScope first)
    (hs : ConvertsInScope second) : ConvertsInScope (.pair first second) := by
  intro side ref
  rw [SchemaType.convert]
  refine Supply.ensures_bind (hf side (.index ref 0)) fun issued firstCode hfirst => ?_
  refine Supply.ensures_bind (hs side (.index ref 1)) fun later secondCode hsecond => ?_
  have hboth := (hfirst.within.of_root rfl : Scoped ref _ _ _).append (hsecond.within.of_root rfl)
  split
  · exact Supply.ensures_pure (wellScoped_pass (by simpa using hboth.known))
  · simp only [← List.append_assoc]
    exact finish_ensures hboth (by decide) rfl fun _ h => h

structure ScopedItem (item : Temp) (issued : List Temp) (code : Code) : Prop where
  category : item.category ∈ conversionCategories
  code : WellScoped (.temp item) issued code

theorem ScopedItem.known {item : Temp} {issued : List Temp} {code : Code}
    (h : ScopedItem item issued code) :
    ∀ temp ∈ item :: issued, temp.category ∈ conversionCategories :=
  List.forall_mem_cons.mpr ⟨h.category, h.code.within.known⟩

theorem ScopedItem.mapItems {item : Temp} {issued : List Temp} {code : Code}
    (h : ScopedItem item issued code) (walked : Source) :
    (Expr.mapItems walked item code.body).binders.Sublist (item :: issued) ∧
      ∀ scope, walked.ref.InScope scope →
        (Expr.mapItems walked item code.body).InScope scope := by
  have hbody : Scoped (.temp item) issued code.statements [code.ref] := h.code.within
  constructor
  · have hgive : bodyBinders code.body = bodyBinders code.statements := by
      simp [Code.body, bodyBinders_append, bodyBinders, Stmt.binders, Expr.binders]
    rw [Expr.binders, hgive]
    exact hbody.binders.cons_cons item
  · intro scope hw
    have hitem : (Ref.temp item).InScope (scope ++ [item.text]) := inScope_temp (by simp)
    refine ⟨hw, (bodyInScope_append _ _ _).mpr ⟨hbody.body _ hitem, ?_, trivial⟩⟩
    exact hbody.results _ hitem code.ref (by simp)

theorem ScopedItem.mapped {item : Temp} {issued : List Temp} {code : Code}
    (h : ScopedItem item issued code) (walked : Source) :
    (mapped walked item code (.source walked)).binders.Sublist (item :: issued) ∧
      ∀ scope, walked.ref.InScope scope →
        (mapped walked item code (.source walked)).InScope scope := by
  rw [ContractClients.mapped]
  split
  · exact ⟨List.nil_sublist _, fun _ hw => hw⟩
  · exact h.mapItems walked

theorem rebuildItems_scoped {item : Temp} {issued : List Temp} {code : Code}
    (h : ScopedItem item issued code) {finish : Expr → Expr} {type : Ty}
    (hb : ∀ value, (finish value).binders = value.binders)
    (hs : ∀ scope value, value.InScope scope → (finish value).InScope scope) :
    (rebuildItems ref item code finish type).Ensures fun later code =>
      WellScoped ref (item :: (issued ++ later)) code := by
  rw [rebuildItems]
  split
  · exact Supply.ensures_pure (wellScoped_pass (by simpa using h.known))
  · obtain ⟨hbinders, hscope⟩ := h.mapItems (.items ref)
    rw [← hb] at hbinders
    exact single_ensures h.known (by decide) hbinders fun scope hr => hs scope _ (hscope scope hr)

theorem item_scoped {item : SchemaType} (ih : ConvertsInScope item) (side : Side)
    {finish : Temp → Code → Supply Code}
    (hf : ∀ name issued code, ScopedItem name issued code →
      (finish name code).Ensures fun later code =>
        WellScoped ref (name :: (issued ++ later)) code) :
    (do
      let name ← fresh "item"
      let code ← item.convert side (.temp name)
      finish name code).Ensures (WellScoped ref) := by
  refine Supply.ensures_fresh_bind fun name hname => ?_
  refine Supply.ensures_bind (ih side (.temp name)) fun issued code hcode => ?_
  exact hf name issued code ⟨by rw [hname]; decide, hcode⟩

theorem list_scoped {item : SchemaType} (ih : ConvertsInScope item) (sizeLength : SizeLength) :
    ConvertsInScope (.list item sizeLength) := by
  intro side ref
  rw [SchemaType.convert, convertItems]
  refine item_scoped ih side fun name issued code h => ?_
  exact rebuildItems_scoped h (fun _ => rfl) fun _ _ hs => hs

theorem array_scoped {item : SchemaType} (ih : ConvertsInScope item) (size : Int) :
    ConvertsInScope (.array item size) := by
  intro side ref
  rw [SchemaType.convert, convertItems]
  refine item_scoped ih side fun name issued code h => ?_
  exact rebuildItems_scoped h (fun _ => by rw [Expr.binders]) fun _ _ hs => by
    rw [Expr.InScope]; exact hs

theorem set_scoped {item : SchemaType} (ih : ConvertsInScope item) (sizeLength : SizeLength) :
    ConvertsInScope (.set item sizeLength) := by
  intro side ref
  rw [SchemaType.convert]
  refine item_scoped ih side fun name issued code h => ?_
  cases side with
  | native =>
    obtain ⟨hbinders, hscope⟩ := h.mapped (.items ref)
    exact single_ensures h.known (by decide) (by rw [Expr.binders]; exact hbinders)
      fun scope hr => by rw [Expr.InScope]; exact hscope scope hr
  | json =>
    obtain ⟨hbinders, hscope⟩ := h.mapped (.values ref)
    exact single_ensures h.known (by decide) hbinders hscope

/-- The entries of a map: both parameters come into scope, then the code for
the key runs before the code for the value. -/
theorem mapEntries_scoped {key value : Temp} {keyIssued valueIssued : List Temp}
    {keyCode valueCode : Code} (hk : WellScoped (.temp key) keyIssued keyCode)
    (hv : WellScoped (.temp value) valueIssued valueCode) (walked : Source) (type : Ty) :
    (mapEntries walked key value keyCode valueCode type).binders.Sublist
        (key :: value :: (keyIssued ++ valueIssued)) ∧
      ∀ scope, walked.ref.InScope scope →
        (mapEntries walked key value keyCode valueCode type).InScope scope := by
  rw [mapEntries]
  split
  · exact ⟨List.nil_sublist _, fun _ hw => hw⟩
  constructor
  · have hgive : bodyBinders (keyCode.statements ++ valueCode.statements ++
        [.give (.tuple [keyCode.ref, valueCode.ref])]) =
        bodyBinders keyCode.statements ++ bodyBinders valueCode.statements := by
      simp [bodyBinders_append, bodyBinders, Stmt.binders, Expr.binders]
    rw [Expr.binders, hgive]
    exact ((hk.within.binders.append hv.within.binders).cons_cons value).cons_cons key
  · intro scope hw
    have hkey : (Ref.temp key).InScope (scope ++ [key.text, value.text]) :=
      inScope_temp (by simp)
    have hvalue : (Ref.temp value).InScope (scope ++ [key.text, value.text]) :=
      inScope_temp (by simp)
    have hkeyRef := hk.within.results _ hkey keyCode.ref (by simp)
    have hlater := hvalue.after keyCode.statements
    have hvalueRef := hv.within.results _ hlater valueCode.ref (by simp)
    refine ⟨hw, (bodyInScope_append _ _ _).mpr ⟨(bodyInScope_append _ _ _).mpr
      ⟨hk.within.body _ hkey, hv.within.body _ hlater⟩, ?_, trivial⟩⟩
    rw [scopeAfter_append]
    intro item hm
    rcases List.mem_cons.mp hm with rfl | hm
    · exact hkeyRef.append _
    · obtain rfl := List.mem_singleton.mp hm
      exact hvalueRef

theorem map_scoped {key value : SchemaType} (hk : ConvertsInScope key)
    (hv : ConvertsInScope value) (sizeLength : SizeLength) :
    ConvertsInScope (.map key value sizeLength) := by
  intro side ref
  rw [SchemaType.convert]
  refine Supply.ensures_fresh_bind fun keyName hkeyName => ?_
  refine Supply.ensures_fresh_bind fun valueName hvalueName => ?_
  refine Supply.ensures_bind (hk side (.temp keyName)) fun keyIssued keyCode hkey => ?_
  refine Supply.ensures_bind (hv side (.temp valueName)) fun valueIssued valueCode hvalue => ?_
  have hknown : ∀ temp ∈ keyName :: valueName :: (keyIssued ++ valueIssued),
      temp.category ∈ conversionCategories := by
    refine List.forall_mem_cons.mpr ⟨by rw [hkeyName]; decide, ?_⟩
    refine List.forall_mem_cons.mpr ⟨by rw [hvalueName]; decide, ?_⟩
    exact List.forall_mem_append.mpr ⟨hkey.within.known, hvalue.within.known⟩
  simp only [← List.append_assoc]
  cases side with
  | native =>
    obtain ⟨hbinders, hscope⟩ := mapEntries_scoped hkey hvalue (.items ref)
      (.tuple [key.typeAt .native, value.typeAt .native])
    exact single_ensures hknown (by decide) (by rw [Expr.binders]; exact hbinders)
      fun scope hr => by rw [Expr.InScope]; exact hscope scope hr
  | json =>
    obtain ⟨hbinders, hscope⟩ := mapEntries_scoped hkey hvalue (.entries ref)
      (.tuple [key.typeAt .json, value.typeAt .json])
    exact single_ensures hknown (by decide) hbinders hscope

theorem convertNamed_scoped (side : Side) (fields : List (String × SchemaType))
    (ih : ∀ field ∈ fields, ConvertsInScope field.2) (ref : Ref) :
    (convertNamed side fields ref).Ensures fun issued result =>
      Scoped ref issued result.1 (result.2.map Prod.snd) := by
  induction fields with
  | nil => exact Supply.ensures_pure (scoped_nil (by simp) (by simp))
  | cons field rest hrest =>
    obtain ⟨name, type⟩ := field
    rw [convertNamed]
    refine Supply.ensures_bind (ih (name, type) (by simp) side (.property ref name))
      fun issued code hcode => ?_
    refine Supply.ensures_bind (hrest fun f hf => ih f (by simp [hf])) fun later others ho => ?_
    have hfirst : Scoped ref issued code.statements [code.ref] := hcode.within.of_root rfl
    exact Supply.ensures_pure (by simpa using hfirst.append ho)

theorem named_scoped {fields : List (String × SchemaType)}
    (ih : ∀ field ∈ fields, ConvertsInScope field.2) : FieldsConvertInScope (.named fields) := by
  intro side ref
  rw [Fields.convert]
  refine Supply.ensures_bind (convertNamed_scoped side fields ih ref) fun issued result h => ?_
  refine finish_ensures h (by decide) rfl fun scope hr => ?_
  rw [Expr.InScope]
  exact fun property hm => hr property.2 (List.mem_map_of_mem hm)

theorem convertUnnamed_scoped (side : Side) (position : Nat) (fields : List SchemaType)
    (ih : ∀ field ∈ fields, ConvertsInScope field) (ref : Ref) :
    (convertUnnamed side position fields ref).Ensures fun issued result =>
      Scoped ref issued result.1 result.2 := by
  induction fields generalizing position with
  | nil => exact Supply.ensures_pure (scoped_nil (by simp) (by simp))
  | cons type rest hrest =>
    rw [convertUnnamed]
    refine Supply.ensures_bind (ih type (by simp) side (.index ref position))
      fun issued code hcode => ?_
    refine Supply.ensures_bind (hrest (position + 1) fun f hf => ih f (by simp [hf]))
      fun later others ho => ?_
    have hfirst : Scoped ref issued code.statements [code.ref] := hcode.within.of_root rfl
    exact Supply.ensures_pure (by simpa using hfirst.append ho)

/-- A single field is read from its place, and wrapped again in JSON only. -/
theorem single_scoped {field : SchemaType} (ih : ConvertsInScope field) :
    FieldsConvertInScope (.unnamed [field]) := by
  intro side ref
  cases side with
  | native =>
    simp only [Fields.convert]
    refine Supply.ensures_imp (ih .native (.index ref 0)) fun issued code h => ?_
    refine ⟨h.within.of_root rfl, ?_⟩
    cases h.result with
    | input depth hr => exact .input (depth + 1) hr
    | fixed hr => exact .fixed hr
    | declared temp hi hr hd => exact .declared temp hi hr hd
  | json =>
    simp only [Fields.convert]
    refine Supply.ensures_bind (ih .json ref) fun issued code h => ?_
    exact finish_ensures h.within (by decide) rfl fun _ hr => hr

theorem unnamed_scoped {fields : List SchemaType}
    (ih : ∀ field ∈ fields, ConvertsInScope field) : FieldsConvertInScope (.unnamed fields) := by
  by_cases hlength : fields.length = 1
  · obtain ⟨field, rfl⟩ := List.length_eq_one_iff.mp hlength
    exact single_scoped (ih field (by simp))
  · intro side ref
    rw [convert_tuple side hlength]
    refine Supply.ensures_bind (convertUnnamed_scoped side 0 fields ih ref)
      fun issued result h => ?_
    exact finish_ensures h (by decide) rfl fun _ hr => hr

theorem none_scoped : FieldsConvertInScope .none := by
  intro side ref
  cases side with
  | native => exact Supply.ensures_pure (wellScoped_fixed (by simp))
  | json => exact Supply.ensures_pure (wellScoped_fixed (by simp))

structure ScopedBlocks (ref : Ref) (result : Temp) (issued : List Temp)
    (blocks : List (String × List Stmt)) : Prop where
  known : ∀ temp ∈ issued, temp.category ∈ conversionCategories
  body : ∀ scope, ref.InScope scope → result.text ∈ scope → blocksInScope scope blocks
  binders : (blockBinders blocks).Sublist issued

theorem scopedBlocks_nil (ref : Ref) (result : Temp) : ScopedBlocks ref result [] [] :=
  ⟨by simp, fun _ _ _ => trivial, List.Sublist.refl []⟩

theorem ScopedBlocks.cons {ref : Ref} {result : Temp} {issued later : List Temp}
    {statements : List Stmt} {results : List Ref} {blocks : List (String × List Stmt)}
    (hb : ScopedBlocks ref result later blocks) (h : Scoped ref issued statements results)
    (name : String) {properties : List (String × Ref)}
    (hp : ∀ scope, (∀ result ∈ results, result.InScope scope) →
      ∀ property ∈ properties, property.2.InScope scope) :
    ScopedBlocks ref result (issued ++ later)
      ((name, statements ++ [.assign result (.record properties)]) :: blocks) where
  known := List.forall_mem_append.mpr ⟨h.known, hb.known⟩
  body scope hr hresult := by
    refine ⟨(bodyInScope_append _ _ _).mpr ⟨h.body scope hr, ?_, trivial⟩, hb.body scope hr hresult⟩
    refine ⟨List.mem_append_left _ hresult, ?_⟩
    rw [Expr.InScope]
    exact hp _ (h.results scope hr)
  binders := by
    have hassign : bodyBinders (statements ++ [.assign result (.record properties)]) =
        bodyBinders statements := by
      simp [bodyBinders_append, bodyBinders, Stmt.binders, Expr.binders]
    rw [blockBinders, hassign]
    exact h.binders.append hb.binders

theorem variantCases_scoped (result : Temp) (ref : Ref) (variants : List (String × Fields))
    (ih : ∀ variant ∈ variants, FieldsConvertInScope variant.2) :
    (variantCases result ref variants).Ensures (ScopedBlocks ref result) := by
  induction variants with
  | nil => exact Supply.ensures_pure (scopedBlocks_nil ref result)
  | cons variant rest hrest =>
    obtain ⟨name, fields⟩ := variant
    rw [variantCases]
    refine Supply.ensures_bind (ih (name, fields) (by simp) .json (.property ref "content"))
      fun issued content hcontent => ?_
    refine Supply.ensures_bind (hrest fun v hv => ih v (by simp [hv])) fun later blocks hb => ?_
    have hscoped : Scoped ref issued content.statements [content.ref] :=
      hcontent.within.of_root rfl
    refine Supply.ensures_pure ?_
    rw [List.append_nil]
    exact hb.cons hscoped name fun scope hr => by simpa using hr

theorem variantBranches_scoped (result : Temp) (ref : Ref) (variants : List (String × Fields))
    (ih : ∀ variant ∈ variants, FieldsConvertInScope variant.2) :
    (variantBranches result ref variants).Ensures (ScopedBlocks ref result) := by
  induction variants with
  | nil => exact Supply.ensures_pure (scopedBlocks_nil ref result)
  | cons variant rest hrest =>
    obtain ⟨name, fields⟩ := variant
    have hnil : Scoped ref [] [] [] := scoped_nil (by simp) (by simp)
    have hothers := hrest fun v hv => ih v (by simp [hv])
    cases hnone : fields.isNone with
    | true =>
      obtain rfl := Fields.eq_none_of_isNone hnone
      rw [variantBranches]
      refine Supply.ensures_bind hothers fun later blocks hb => ?_
      refine Supply.ensures_pure ?_
      rw [List.append_nil]
      exact hb.cons hnil name fun scope _ => by simp [Ref.InScope, Ref.root?]
    | false =>
      rw [branches_content result ref name hnone]
      refine Supply.ensures_fresh_bind fun variant hvariant => ?_
      refine Supply.ensures_bind (ih (name, fields) (by simp) .native (.temp variant))
        fun issued content hcontent => ?_
      refine Supply.ensures_bind hothers fun later blocks hb => ?_
      have hread : Scoped ref ([] ++ [variant]) [.const variant none (.ref (.property ref name))]
          [.temp variant] :=
        scoped_const none (by simp) (by rw [hvariant]; decide) (List.nil_sublist []) fun _ hs => hs
      refine Supply.ensures_pure ?_
      rw [List.append_nil, ← List.cons_append]
      refine hb.cons (hread.trans hcontent.within) name fun scope hr => ?_
      have hfixed : (Ref.literal name).InScope scope := by simp [Ref.InScope, Ref.root?]
      simpa [hfixed] using hr

theorem declare_wellScoped {result : Temp} {later : List Temp} {rest : List Stmt} {type : Ty}
    (hc : result.category ∈ conversionCategories)
    (hk : ∀ temp ∈ later, temp.category ∈ conversionCategories)
    (hbody : ∀ scope, ref.InScope scope → result.text ∈ scope → bodyInScope scope rest)
    (hb : (bodyBinders rest).Sublist later) :
    WellScoped ref (result :: later) ⟨.declare result type :: rest, .temp result⟩ where
  within := {
    known := List.forall_mem_cons.mpr ⟨hc, hk⟩
    body := fun scope hr => ⟨trivial, hbody _ (hr.append _) (by simp [Stmt.declares])⟩
    results := fun scope _ value hm => by
      obtain rfl := List.mem_singleton.mp hm
      exact inScope_temp (by simp [scopeAfter, declared, Stmt.declares])
    binders := by
      rw [bodyBinders, Stmt.binders]
      exact hb.cons_cons result }
  result := .declared result (by simp) rfl (by simp [declared, Stmt.declares])

theorem enum_scoped {variants : List (String × Fields)}
    (ih : ∀ variant ∈ variants, FieldsConvertInScope variant.2) (tagging : Tagging) :
    ConvertsInScope (.enum variants tagging) := by
  intro side ref
  rw [SchemaType.convert]
  refine Supply.ensures_fresh_bind fun result hresult => ?_
  have hc : result.category ∈ conversionCategories := by rw [hresult]; decide
  cases side with
  | native =>
    refine Supply.ensures_bind (variantBranches_scoped result ref variants ih)
      fun later blocks hb => Supply.ensures_pure ?_
    rw [List.append_nil]
    refine declare_wellScoped hc hb.known
      (fun scope hr hres => ⟨⟨hr, hb.body scope hr hres⟩, trivial⟩) ?_
    simpa [bodyBinders, Stmt.binders] using hb.binders
  | json =>
    refine Supply.ensures_bind (variantCases_scoped result ref variants ih)
      fun later blocks hb => Supply.ensures_pure ?_
    rw [List.append_nil]
    split
    · exact declare_wellScoped hc hb.known (fun _ _ _ => trivial) (List.nil_sublist later)
    · refine declare_wellScoped hc hb.known
        (fun scope hr hres => ⟨⟨hr, hb.body scope hr hres⟩, trivial⟩) ?_
      simpa [bodyBinders, Stmt.binders] using hb.binders

theorem inScope_cases : SchemaCases ConvertsInScope FieldsConvertInScope where
  scalar scalar _ _ _ := scalarForm_scoped scalar.form (domainCategory_mem scalar)
  leb128 _ _ _ _ := scalarForm_scoped .wideInteger fun _ h => nomatch h
  string _ _ _ := Supply.ensures_pure (wellScoped_pass (by simp))
  byteList _ _ _ := Supply.ensures_pure (wellScoped_pass (by simp))
  byteArray _ _ _ := Supply.ensures_pure (wellScoped_pass (by simp))
  pair _ _ hf hs := pair_scoped hf hs
  list _ sizeLength ih := list_scoped ih sizeLength
  set _ sizeLength ih := set_scoped ih sizeLength
  map _ _ sizeLength hk hv := map_scoped hk hv sizeLength
  array _ size ih := array_scoped ih size
  struct _ ih := ih
  enum _ tagging ih := enum_scoped ih tagging
  named _ ih := named_scoped ih
  unnamed _ ih := unnamed_scoped ih
  none := none_scoped

end Conversions

theorem first_text (ref : Ref) (depth : Nat) :
    (ref.first depth).text = ref.text ++ String.join (List.replicate depth "[0]") := by
  induction depth generalizing ref with
  | zero => simp [Ref.first, String.join]
  | succ depth ih =>
    have hindex : (Ref.index ref 0).text = ref.text ++ "[0]" := by
      rw [Ref.text, String.append_assoc, String.append_assoc]
      rfl
    rw [Ref.first, ih, hindex, List.replicate_succ, String.join_cons, String.append_assoc]

structure WithinScope (input : String) (issued : List Temp) (code : Code) : Prop where
  uses : bodyInScope [rootName input] code.statements
  resultUse : code.ref.InScope (scopeAfter [rootName input] code.statements)
  distinct : (rootName input :: (bodyBinders code.statements).map Temp.text).Nodup
  binders : (bodyBinders code.statements).Sublist issued
  result : (∃ depth, code.ref.text = input ++ String.join (List.replicate depth "[0]")) ∨
    code.ref.text ∈ ["[]", "'Unit'", "'no-fields'"] ∨
    ∃ temp ∈ issued, code.ref.text = temp.text ∧ temp ∈ declared code.statements

/-- The code of a conversion is within its scope, when the input does not start
with a name that the counter has yet to hand out. -/
theorem conversions_within_scope (side : Side) (type : SchemaType) {start : Int}
    (h0 : 0 ≤ start) {input : String} (hin : Untaken start input) :
    WithinScope input ((type.convert side (.given input)).issued start)
      ((type.convert side (.given input)).run start).1 := by
  have hcode := inScope_cases.types type side (.given input) start
  have hrange := (Supply.issued_numbers (type.convert side (.given input)) start).1
  have hnodup := Supply.issued_texts_nodup (type.convert side (.given input)) h0
    fun temp ht => lettered_last (conversionCategories_lettered (hcode.within.known temp ht))
  generalize (type.convert side (.given input)).issued start = issued at hcode hrange hnodup ⊢
  generalize ((type.convert side (.given input)).run start).1 = code at hcode ⊢
  have hinput : (Ref.given input).InScope [rootName input] := by simp [Ref.InScope, Ref.root?]
  have hbinders := hcode.within.binders
  refine ⟨hcode.within.body _ hinput, hcode.within.results _ hinput code.ref (by simp), ?_,
    hbinders, ?_⟩
  · refine List.nodup_cons.mpr ⟨fun hm => ?_, hnodup.sublist (hbinders.map _)⟩
    obtain ⟨temp, ht, heq⟩ := List.mem_map.mp hm
    have htemp := hbinders.mem ht
    exact hin temp (hcode.within.known temp htemp) (hrange temp htemp).1 heq.symm
  · cases hcode.result with
    | input depth hr => exact Or.inl ⟨depth, by rw [hr, first_text]; rfl⟩
    | fixed hr =>
      refine Or.inr (Or.inl ?_)
      simp only [List.mem_cons, List.not_mem_nil, or_false] at hr
      rcases hr with hr | hr | hr <;> rw [hr] <;> decide
    | declared temp hi hr hd => exact Or.inr (Or.inr ⟨temp, hi, by rw [hr]; rfl, hd⟩)

/-- The input is itself a temporary, the last one handed out before. -/
theorem enumList_within_scope :
    WithinScope "number2"
      (((SchemaType.list (.enum [("a'b", .unnamed [.scalar .u128 .u32]), ("c", .none)]
        .byPosition) .u32).convert .native (.given "number2")).issued 3)
      (((SchemaType.list (.enum [("a'b", .unnamed [.scalar .u128 .u32]), ("c", .none)]
        .byPosition) .u32).convert .native (.given "number2")).run 3).1 := by
  have hinput : Untaken 3 "number2" :=
    (taken_next 2 (show "number" ∈ conversionCategories by decide)).untaken (by decide)
  exact conversions_within_scope .native _ (by decide) hinput

end ContractClients
