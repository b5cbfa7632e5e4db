import ContractClients.Conversion.Convert
import ContractClients.Proofs.ConvertShapes
import ContractClients.Proofs.Scanner
import ContractClients.TypeScript.Layout

/-!
# Generated text is well formed

Types and references are printed as fragments that close the brackets they open
and leave every literal they begin. Names chosen by the author of a schema enter
only as identifiers or as quoted literals, so they cannot change that. Lines are
scanned one after the other, and margins make no difference.
-/

set_option autoImplicit false

namespace ContractClients

open TypeScript

def TypePrints (type : Ty) : Prop := Fragment (fun _ => False) type.text [] []

theorem texts_print {types : List Ty} (h : ∀ type ∈ types, TypePrints type) :
    ∀ text ∈ Ty.texts types, Fragment (fun _ => False) text [] [] := by
  induction types with
  | nil => simp [Ty.texts]
  | cons type rest ih =>
    obtain ⟨htype, hrest⟩ := List.forall_mem_cons.mp h
    exact List.forall_mem_cons.mpr ⟨htype, ih hrest⟩

theorem propertyTexts_print {properties : List (String × Ty)}
    (h : ∀ property ∈ properties, TypePrints property.2) :
    ∀ text ∈ Ty.propertyTexts properties, Fragment (fun _ => False) text [] [] := by
  induction properties with
  | nil => simp [Ty.propertyTexts]
  | cons property rest ih =>
    obtain ⟨hproperty, hrest⟩ := List.forall_mem_cons.mp h
    exact List.forall_mem_cons.mpr ⟨fragment_defineProperty property.1 hproperty, ih hrest⟩

theorem tuple_prints {items : List Ty} (h : ∀ item ∈ items, TypePrints item) :
    TypePrints (.tuple items) := by
  have hitems := fragment_intercalate fragment_comma (texts_print h)
  have hempty : Fragment (fun _ => False) "" [] [] := fragment_empty
  rw [TypePrints, Ty.text, ← String.empty_append (s := "[")]
  exact fragment_brackets hempty hitems

theorem apply_prints {head : String} (hh : Fragment (fun _ => False) head [] [])
    {arguments : List Ty} (h : ∀ argument ∈ arguments, TypePrints argument) :
    TypePrints (.apply head arguments) := by
  have harguments := fragment_intercalate fragment_comma (texts_print h)
  have hopen : Fragment (fun _ => False) "<" [] [] := fragment_fixed rfl rfl rfl
  have hclose : Fragment (fun _ => False) ">" [] [] := fragment_fixed rfl rfl rfl
  rw [TypePrints, Ty.text]
  exact ((hh.append hopen).append harguments).append hclose

theorem object_prints {properties : List (String × Ty)}
    (h : ∀ property ∈ properties, TypePrints property.2) : TypePrints (.object properties) := by
  have hproperties := fragment_intercalate fragment_comma (propertyTexts_print h)
  cases properties with
  | nil => exact fragment_fixed rfl rfl rfl
  | cons property rest => exact fragment_object hproperties

theorem union_prints {members : List Ty} (h : ∀ type ∈ members, TypePrints type) :
    TypePrints (.union members) := by
  have hmembers := fragment_intercalate (fragment_fixed rfl rfl rfl : Fragment _ " | " [] [])
    (texts_print h)
  cases members with
  | nil => exact fragment_fixed rfl rfl rfl
  | cons type rest => exact hmembers

structure ScalarForm.Ordinary (form : ScalarForm) : Prop where
  known : form.Known
  module : ∀ moduleName, form = .domain moduleName →
    Fragment (fun _ => False) (sdk moduleName) [] []

theorem scalar_ordinary (scalar : Scalar) : scalar.form.Ordinary where
  known := domainCategory_mem scalar
  module moduleName h := by
    cases scalar <;> simp only [Scalar.form, reduceCtorEq, ScalarForm.domain.injEq] at h <;>
      subst h <;> exact fragment_fixed rfl rfl rfl

theorem numberOrBigint_prints : TypePrints numberOrBigint := fragment_fixed rfl rfl rfl

theorem scalarForm_prints {form : ScalarForm} (h : form.Ordinary) (side : Side) :
    TypePrints (form.typeAt side) := by
  cases form with
  | unit => cases side <;> exact fragment_fixed rfl rfl rfl
  | boolean => cases side <;> exact fragment_fixed rfl rfl rfl
  | machineInteger => cases side <;> exact fragment_fixed rfl rfl rfl
  | longInteger =>
    cases side with
    | native => exact numberOrBigint_prints
    | json => exact fragment_fixed rfl rfl rfl
  | wideInteger =>
    cases side with
    | native => exact numberOrBigint_prints
    | json => exact fragment_fixed rfl rfl rfl
  | domain moduleName =>
    cases side <;> exact (h.module moduleName rfl).append (fragment_fixed rfl rfl rfl)

def TypesPrint (type : SchemaType) : Prop := ∀ side, TypePrints (type.typeAt side)

def FieldTypesPrint (fields : Fields) : Prop := ∀ side, TypePrints (fields.typeAt side)

theorem namedTypes_print {fields : List (String × SchemaType)}
    (ih : ∀ field ∈ fields, TypesPrint field.2) (side : Side) :
    ∀ property ∈ namedTypes side fields, TypePrints property.2 := by
  induction fields with
  | nil => simp [namedTypes]
  | cons field rest hrest =>
    obtain ⟨hfield, hothers⟩ := List.forall_mem_cons.mp ih
    exact List.forall_mem_cons.mpr ⟨hfield side, hrest hothers⟩

theorem fieldTypes_print {fields : List SchemaType} (ih : ∀ field ∈ fields, TypesPrint field)
    (side : Side) : ∀ type ∈ fieldTypes side fields, TypePrints type := by
  induction fields with
  | nil => simp [fieldTypes]
  | cons field rest hrest =>
    obtain ⟨hfield, hothers⟩ := List.forall_mem_cons.mp ih
    exact List.forall_mem_cons.mpr ⟨hfield side, hrest hothers⟩

theorem variantType_prints (side : Side) (name : String) (fields : Fields) {content : Ty}
    (h : TypePrints content) : TypePrints (variantType side name fields content) := by
  have htag : TypePrints (.singleQuoted name) := fragment_quote name
  cases side with
  | json => exact object_prints (by simpa using h)
  | native =>
    rw [variantType]
    split
    · exact object_prints (by simpa using htag)
    · exact object_prints (by simpa using ⟨htag, h⟩)

theorem variantTypes_print {variants : List (String × Fields)}
    (ih : ∀ variant ∈ variants, FieldTypesPrint variant.2) (side : Side) :
    ∀ type ∈ variantTypes side variants, TypePrints type := by
  induction variants with
  | nil => simp [variantTypes]
  | cons variant rest hrest =>
    obtain ⟨hvariant, hothers⟩ := List.forall_mem_cons.mp ih
    exact List.forall_mem_cons.mpr
      ⟨variantType_prints side variant.1 variant.2 (hvariant side), hrest hothers⟩

theorem unnamedTypes_print {fields : List SchemaType} (ih : ∀ field ∈ fields, TypesPrint field) :
    FieldTypesPrint (.unnamed fields) := by
  intro side
  match fields, ih with
  | [field], ih =>
    have hfield := ih field (by simp)
    cases side with
    | native => exact hfield .native
    | json => exact tuple_prints (by simpa using hfield .json)
  | [], ih => exact tuple_prints (fieldTypes_print ih side)
  | _ :: _ :: _, ih => exact tuple_prints (fieldTypes_print ih side)

theorem string_prints : TypePrints (.name "string") := fragment_fixed rfl rfl rfl

theorem hexString_prints : TypePrints (.name (sdk "HexString")) := fragment_fixed rfl rfl rfl

theorem types_print : SchemaCases TypesPrint FieldTypesPrint where
  scalar scalar _ side := scalarForm_prints (scalar_ordinary scalar) side
  leb128 _ _ side := scalarForm_prints (scalar_ordinary .u128) side
  string _ _ := string_prints
  byteList _ side := by
    cases side with
    | native => exact hexString_prints
    | json => exact string_prints
  byteArray _ side := by
    cases side with
    | native => exact hexString_prints
    | json => exact string_prints
  pair _ _ hf hs side := tuple_prints (by simpa using ⟨hf side, hs side⟩)
  list _ _ ih side := apply_prints (fragment_fixed rfl rfl rfl) (by simpa using ih side)
  set _ _ ih side := by
    cases side <;> exact apply_prints (fragment_fixed rfl rfl rfl) (by simpa using ih _)
  map _ _ _ hk hv side := by
    cases side with
    | native => exact apply_prints (fragment_fixed rfl rfl rfl) (by simpa using ⟨hk _, hv _⟩)
    | json =>
      have hentry : TypePrints (.tuple [_, _]) :=
        tuple_prints (by simpa using ⟨hk .json, hv .json⟩)
      exact apply_prints (fragment_fixed rfl rfl rfl) (by simpa using hentry)
  array _ _ ih side := by
    refine tuple_prints fun item hm => ?_
    obtain ⟨-, rfl⟩ := List.mem_replicate.mp hm
    exact ih side
  struct _ ih := ih
  enum _ _ ih side := union_prints (variantTypes_print ih side)
  named _ ih side := object_prints (namedTypes_print ih side)
  unnamed _ ih := unnamedTypes_print ih
  none side := by cases side <;> exact fragment_fixed rfl rfl rfl

section Layout

variable {allowed : Char → Prop}

inductive LinesScan : List Line → List Char → List Char → Prop
  | nil (brackets : List Char) : LinesScan [] brackets brackets
  | cons {line : Line} {rest : List Line} {before middle after : List Char}
      (hline : (⟨.code, before⟩ : Scan).run line.text.toList = some ⟨.code, middle⟩)
      (hrest : LinesScan rest middle after) : LinesScan (line :: rest) before after

theorem run_render (width : Nat) (line : Line) (before : List Char) :
    (⟨.code, before⟩ : Scan).run (line.render width).toList =
      (⟨.code, before⟩ : Scan).run line.text.toList := by
  have hblanks : ∀ count, (⟨.code, before⟩ : Scan).run (List.replicate count ' ') =
      some ⟨.code, before⟩ := by
    intro count
    induction count with
    | zero => rfl
    | succ count ih =>
      rw [List.replicate_succ]
      exact ih
  rw [Line.render, Text.indentLine]
  split
  · rfl
  · rw [String.toList_append, Text.spaces, String.toList_ofList, Scan.run_append, hblanks]
    rfl

theorem LinesScan.render {lines : List Line} {before after : List Char}
    (h : LinesScan lines before after) (width : Nat) :
    (⟨.code, before⟩ : Scan).run (Text.unlines (lines.map (Line.render width))).toList =
      some ⟨.code, after⟩ := by
  induction h with
  | nil _ => rfl
  | @cons line rest before middle after hline hrest ih =>
    rw [← run_render width] at hline
    cases hrest with
    | nil _ =>
      rw [Text.unlines, List.map_cons, List.map_nil, String.intercalate_singleton]
      exact hline
    | cons _ _ =>
      have hbreak : (⟨.code, middle⟩ : Scan).run "\n".toList = some ⟨.code, middle⟩ := rfl
      rw [Text.unlines, List.map_cons, List.map_cons, String.intercalate_cons_cons,
        String.toList_append, String.toList_append, Scan.run_append, Scan.run_append, hline]
      exact Option.bind_eq_some_iff.mpr ⟨_, hbreak, ih⟩

theorem pieces_without {chars : List Char} (h : '\n' ∉ chars) :
    Text.pieces (· == '\n') chars = [chars] := by
  apply Text.pieces_eq_singleton
  intro c hc
  exact beq_eq_false_iff_ne.mpr fun hline => h (hline ▸ hc)

def StmtPrints (statement : Stmt) : Prop := LinesScan statement.lines [] []

def BodyPrints (body : List Stmt) : Prop := ∀ statement ∈ body, StmtPrints statement

theorem unexpectedVariant_fragment {subject : Ref} (hs : Fragment allowed subject.text [] []) :
    Fragment allowed (unexpectedVariant subject) [] [] := by
  have hthrow : Fragment allowed "throw new Error('Unexpected enum variant: ' + Object.keys(" []
      [')', ')'] := fragment_fixed rfl rfl rfl
  have hkeys : Fragment allowed ").join(', '));" [')', ')'] [] := fragment_fixed rfl rfl rfl
  exact (hthrow.append (hs.within [')', ')'])).append hkeys

theorem digits_fragment (n : Nat) : Fragment allowed (toString n) [] [] := by
  refine fragment_parts fun c hc => ?_
  have hdigits : (toString n).toList = Nat.toDigits 10 n := Nat.toList_repr
  rw [hdigits] at hc
  simp [isIdentifierPart, toDigits_isDigit n c hc]

theorem numbered_fragment {temp : Temp} (h : Fragment allowed temp.category [] []) :
    Fragment allowed temp.text [] [] := by
  have hnumber : Fragment allowed (toString temp.number) [] [] := by
    cases temp.number with
    | ofNat n => exact digits_fragment n
    | negSucc n =>
      have hsign : Fragment allowed "-" [] [] := fragment_fixed rfl rfl rfl
      exact hsign.append (digits_fragment (n + 1))
  exact h.append hnumber

theorem temp_fragment {temp : Temp} (h : temp.category ∈ conversionCategories) :
    Fragment allowed temp.text [] [] := by
  have hcategory : Fragment allowed temp.category [] [] := by
    refine fragment_parts fun c hc => ?_
    have hletter := isAlpha_identifierStart ((conversionCategories_lettered h).2 c hc)
    simp [isIdentifierPart, hletter]
  exact numbered_fragment hcategory

theorem index_fragment {ref : Ref} (h : Fragment allowed ref.text [] []) (position : Nat) :
    Fragment allowed (Ref.index ref position).text [] [] :=
  fragment_brackets h (digits_fragment position)

/-- A reference that a conversion starts from may have comments of its own. -/
theorem given_fragment {input : String} (h : WellFormed input) :
    Fragment (fun c => c ∈ input.toList ∨ c ∈ openers) (Ref.given input).text [] [] :=
  ⟨h, fun _ hc _ => .inl hc, fun hm => absurd (.inr (List.mem_cons_self ..)) (hm '/' (by decide))⟩

theorem refs_fragment {refs : List Ref} (h : ∀ ref ∈ refs, Fragment allowed ref.text [] []) :
    Fragment allowed (", ".intercalate (refs.map Ref.text)) [] [] := by
  refine fragment_intercalate fragment_comma fun text hm => ?_
  obtain ⟨ref, href, rfl⟩ := List.mem_map.mp hm
  exact h ref href

theorem propertyList_fragment {properties : List (String × Ref)}
    (h : ∀ property ∈ properties, Fragment allowed property.2.text [] []) :
    ∀ text ∈ propertyList properties, Fragment allowed text [] [] := by
  intro text hm
  obtain ⟨property, hproperty, rfl⟩ := List.mem_map.mp hm
  exact fragment_defineProperty property.1 (h property hproperty)

theorem spread_fragment {ref : Ref} (h : Fragment allowed ref.text [] []) {back : String}
    (hb : Fragment allowed back [']'] []) :
    Fragment allowed ("[..." ++ ref.text ++ back) [] [] := by
  have hopen : Fragment allowed "[..." [] [']'] := fragment_fixed rfl rfl rfl
  exact (hopen.append (h.within [']'])).append hb

theorem values_fragment {ref : Ref} (h : Fragment allowed ref.text [] []) :
    Fragment allowed (Source.values ref).text [] [] :=
  spread_fragment h (fragment_fixed rfl rfl rfl)

theorem entries_fragment {ref : Ref} (h : Fragment allowed ref.text [] []) :
    Fragment allowed (Source.entries ref).text [] [] :=
  spread_fragment h (fragment_fixed rfl rfl rfl)

end Layout

end ContractClients
