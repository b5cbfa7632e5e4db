import ContractClients.Proofs.DocumentedUnits
import ContractClients.Proofs.PropertyNames
import ContractClients.Proofs.RenderedFiles
import ContractClients.Settings.Load

/-!
# The import of the SDK

Every unit imports the SDK from the module that the configuration names, and
the name is put between quotes as it is. A name without quotes, backslashes and
line terminators is the value of the literal that it is written in; no other
name is.
-/

set_option autoImplicit false

namespace ContractClients

namespace TypeScript

theorem inside_eq_of_statement {specifier inside tail after : List Char} {value : List Nat}
    (hinside : Inside '\'' inside value) (hlength : value.length = (codeUnits specifier).length)
    (h : specifier ++ '\'' :: ';' :: '\n' :: tail = inside ++ '\'' :: ';' :: '\n' :: after) :
    inside = specifier := by
  rcases List.append_eq_append_iff.mp h with ⟨more, rfl, hmore⟩ | ⟨more, rfl, -⟩
  · match more, hmore with
    | [], _ => exact List.append_nil _
    | [c], hmore => exact absurd (List.cons.inj (List.cons.inj hmore).2).1 (by decide)
    | [c, d], hmore =>
      exact absurd (List.cons.inj (List.cons.inj (List.cons.inj hmore).2).2).1 (by decide)
    | c :: d :: e :: more, hmore =>
      obtain rfl := (List.cons.inj (List.cons.inj (List.cons.inj hmore).2).2).1
      exact absurd (hinside.terminators '\n' (by simp)) (by decide)
  · have hle := hinside.length
    have hunits := length_le_codeUnits more
    rw [hlength, codeUnits_append, List.length_append] at hle
    rw [List.length_eq_zero_iff.mp (by omega : more.length = 0), List.append_nil]

/-- A text in quotes that a statement ends with is the value of its literal if
and only if all of it is plain. -/
theorem readString_statement_iff (specifier tail : List Char) :
    (∃ after, readString '\'' (specifier ++ '\'' :: ';' :: '\n' :: tail) =
      some (codeUnits specifier, ';' :: '\n' :: after)) ↔
    specifier.all (isPlain '\'') = true := by
  refine ⟨fun ⟨after, hread⟩ => ?_, fun hplain => ⟨tail, readString_all_plain hplain _⟩⟩
  obtain ⟨inside, hsplit, hinside⟩ := readString_inside hread
  obtain rfl := inside_eq_of_statement hinside rfl hsplit
  exact hinside.plain rfl

def directiveText (unchecked : Bool) : String :=
  if unchecked then uncheckedDirective ++ "\n\n" else ""

theorem paragraphs_begin (first : String) (later : List String) :
    ∃ after, "\n\n".intercalate (first :: later) ++ "\n" = first ++ "\n" ++ after := by
  cases later with
  | nil => exact ⟨"", by rw [String.intercalate_singleton, String.append_empty]⟩
  | cons next later =>
    have hgap : "\n\n" = "\n" ++ "\n" := rfl
    refine ⟨"\n" ++ ("\n\n".intercalate (next :: later) ++ "\n"), ?_⟩
    rw [String.intercalate_cons_cons]
    simp only [hgap, String.append_assoc]

theorem render_begins {unit : SourceUnit} {entry : Import} (h : unit.imports = [entry])
    (indent : Int) (unchecked : Bool) :
    ∃ after, unit.render indent unchecked =
      directiveText unchecked ++ (entry.render ++ "\n" ++ after) := by
  obtain ⟨after, hafter⟩ := paragraphs_begin entry.render
    (unit.declarations.map (Declaration.render (Text.indentation indent)))
  refine ⟨after, ?_⟩
  have himports : Text.unlines (unit.imports.map Import.render) = entry.render := by
    rw [h]
    exact String.intercalate_singleton
  rw [← hafter, SourceUnit.render, SourceUnit.blocks, himports, h]
  cases unchecked with
  | false => exact (String.empty_append).symm
  | true =>
    show "\n\n".intercalate (uncheckedDirective :: entry.render :: _) ++ "\n" = _
    rw [String.intercalate_cons_cons, String.append_assoc]
    rfl

end TypeScript

namespace Client

open TypeScript

def ImportsConfigured (options : Options) (text : String) : Prop :=
  ∃ literal after, text.toList =
      (directiveText options.unchecked ++ "import * as SDK from ").toList ++ literal ∧
    readQuoted literal = some (codeUnits options.sdkModule.toList, ';' :: '\n' :: after)

theorem unitText_begins {clients : Clients} {unit : SourceUnit} (hunit : unit ∈ clients.units)
    (indent : Option Int) :
    ∃ after, clients.unitText indent unit = directiveText clients.unchecked ++
      "import * as SDK from " ++ ("'" ++ clients.sdkModule ++ "';\n" ++ after) := by
  obtain ⟨file, -, rfl⟩ := List.mem_map.mp hunit
  obtain ⟨after, hafter⟩ := render_begins
    (rfl : (file.sourceUnit clients.sdkModule clients.widths).imports =
      [⟨"SDK", clients.sdkModule⟩])
    (indent.getD clients.indent) clients.unchecked
  refine ⟨after, ?_⟩
  have hstart : "import * as " ++ "SDK" ++ " from '" = "import * as SDK from " ++ "'" := rfl
  have hclose : "';" ++ "\n" = "';\n" := rfl
  have himport : Import.render ⟨"SDK", clients.sdkModule⟩ =
      "import * as " ++ "SDK" ++ " from '" ++ clients.sdkModule ++ "';" := rfl
  rw [Clients.unitText, hafter, himport, hstart, ← hclose]
  simp only [String.append_assoc]

theorem unit_imports_iff {clients : Clients} {unit : SourceUnit} (hunit : unit ∈ clients.units)
    {options : Options} (hmodule : clients.sdkModule = options.sdkModule)
    (hunchecked : clients.unchecked = options.unchecked) (indent : Option Int) :
    ImportsConfigured options (clients.unitText indent unit) ↔
      options.sdkModule.toList.all (isPlain '\'') = true := by
  obtain ⟨after, htext⟩ := unitText_begins hunit indent
  rw [← readString_statement_iff _ after.toList]
  rw [hmodule, hunchecked] at htext
  have hlist : (clients.unitText indent unit).toList =
      (directiveText options.unchecked ++ "import * as SDK from ").toList ++
        '\'' :: (options.sdkModule.toList ++ '\'' :: ';' :: '\n' :: after.toList) := by
    rw [htext, String.toList_append]
    simp [String.toList_append]
  rw [ImportsConfigured, hlist]
  constructor
  · rintro ⟨literal, rest, hsplit, hread⟩
    obtain rfl := List.append_cancel_left hsplit
    exact ⟨rest, hread⟩
  · rintro ⟨rest, hread⟩
    exact ⟨_, rest, rfl, hread⟩

/-- Whatever is configured and whatever the width, a unit imports the SDK from
the configured module if and only if its name is plain: without quotes,
backslashes and line terminators. -/
theorem sdk_imported_iff {m : Type → Type} [Monad m] [LawfulMonad m] (host : Host m)
    (target : Target) (options : Options) (conversionWidth start : Int) (indent : Option Int) :
    SatisfiesM (fun result => ∀ unit ∈ result.1.units,
        (ImportsConfigured options (result.1.unitText indent unit) ↔
          options.sdkModule.toList.all (isPlain '\'') = true))
      ((assemble host target options conversionWidth).run start) := by
  apply (assemble_satisfies host target options conversionWidth start).imp
  rintro result ⟨schemas, h⟩ unit hunit
  exact unit_imports_iff hunit h.configured.1 h.configured.2.2 indent

theorem apostrophe_not_imported :
    ∃ options, Options.ofText "sdk-module: it's\n" = .ok options ∧
      ¬ ∀ unit ∈ ((assemble silentHost counterTarget options 4).run 0).1.units,
        ImportsConfigured options
          (((assemble silentHost counterTarget options 4).run 0).1.unitText none unit) := by
  refine ⟨⟨"it's", 4, false⟩, by decide +kernel, fun himports => ?_⟩
  obtain ⟨schemas, h⟩ := SatisfiesM_Id_eq.mp
    (assemble_satisfies silentHost counterTarget ⟨"it's", 4, false⟩ 4 0)
  have hplain := (unit_imports_iff List.mem_cons_self h.configured.1 h.configured.2.2 none).mp
    (himports _ List.mem_cons_self)
  exact absurd hplain (by decide)

theorem counter_imports :
    ("@concordium/web-sdk".toList.all (isPlain '\'') = true) ∧
      ∀ unit ∈ ((assemble silentHost counterTarget {} 4).run 0).1.units,
        ImportsConfigured {}
          (((assemble silentHost counterTarget {} 4).run 0).1.unitText none unit) := by
  have himports := SatisfiesM_Id_eq.mp (sdk_imported_iff silentHost counterTarget {} 4 0 none)
  have hplain : "@concordium/web-sdk".toList.all (isPlain '\'') = true := by decide
  exact ⟨hplain, fun unit hunit => (himports unit hunit).mpr hplain⟩

end Client

end ContractClients
