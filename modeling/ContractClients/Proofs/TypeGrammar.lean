import ContractClients.Proofs.Tokens

/-!
# A grammar of types

Types are keywords, dotted names, string literals, applications of the generic
collections, tuples, object types and unions; a union binds weaker than all the
others. The grammar is unambiguous: what can stand after a phrase never goes on
with it, so tokens are read as one phrase of a category at most.
-/

set_option autoImplicit false

namespace ContractClients.TypeScript

inductive Keyword where
  | boolean
  | number
  | bigint
  | string
  | never
  deriving DecidableEq

def Keyword.text : Keyword → String
  | boolean => "boolean"
  | number => "number"
  | bigint => "bigint"
  | string => "string"
  | never => "never"

theorem Keyword.text_injective : Function.Injective Keyword.text := by
  intro keyword other h
  cases keyword <;> cases other <;> simp_all [Keyword.text]

inductive Generic where
  | array
  | set
  | map
  deriving DecidableEq

def Generic.text : Generic → String
  | array => "Array"
  | set => "Set"
  | map => "Map"

theorem Generic.text_injective : Function.Injective Generic.text := by
  intro head other h
  cases head <;> cases other <;> simp_all [Generic.text]

inductive TypeTree where
  | keyword (keyword : Keyword)
  | name (path : List String)
  | literal (value : String)
  | apply (head : Generic) (arguments : List TypeTree)
  | tuple (items : List TypeTree)
  | object (properties : List (String × TypeTree))
  | union (members : List TypeTree)

inductive Phrase where
  | word (text : String)
  | primary (tree : TypeTree)
  | type (tree : TypeTree)
  | property (key : String) (tree : TypeTree)
  | separated (mark : Char) (parts : List Phrase)

inductive Derives : Phrase → List Token → List Token → Prop where
  | word (text : String) (rest : List Token) : Derives (.word text) (.word text :: rest) rest
  | last {mark : Char} {part : Phrase} {tokens rest : List Token} (h : Derives part tokens rest) :
    Derives (.separated mark [part]) tokens rest
  | next {mark : Char} {part : Phrase} {parts : List Phrase} {tokens middle rest : List Token}
    (h : Derives part tokens (.mark mark :: middle))
    (hparts : Derives (.separated mark parts) middle rest) :
    Derives (.separated mark (part :: parts)) tokens rest
  | keyword {keyword : Keyword} {text : String} {rest : List Token} (h : keyword.text = text) :
    Derives (.primary (.keyword keyword)) (.word text :: rest) rest
  | name {path : List String} {tokens rest : List Token}
    (hpath : ∀ keyword : Keyword, path ≠ [keyword.text])
    (h : Derives (.separated '.' (path.map .word)) tokens rest) :
    Derives (.primary (.name path)) tokens rest
  | literal (value : String) (rest : List Token) :
    Derives (.primary (.literal value)) (.literal value :: rest) rest
  | apply {head : Generic} {text : String} {arguments : List TypeTree} {tokens rest : List Token}
    (hhead : head.text = text)
    (h : Derives (.separated ',' (arguments.map .type)) tokens (.mark '>' :: rest)) :
    Derives (.primary (.apply head arguments)) (.word text :: .mark '<' :: tokens) rest
  | emptyTuple (rest : List Token) :
    Derives (.primary (.tuple [])) (.mark '[' :: .mark ']' :: rest) rest
  | tuple {items : List TypeTree} {tokens rest : List Token}
    (h : Derives (.separated ',' (items.map .type)) tokens (.mark ']' :: rest)) :
    Derives (.primary (.tuple items)) (.mark '[' :: tokens) rest
  | emptyObject (rest : List Token) :
    Derives (.primary (.object [])) (.mark '\x7b' :: .mark '\x7d' :: rest) rest
  | object {properties : List (String × TypeTree)} {tokens rest : List Token}
    (h : Derives (.separated ',' (properties.map fun (key, tree) => .property key tree)) tokens
      (.mark '\x7d' :: rest)) :
    Derives (.primary (.object properties)) (.mark '\x7b' :: tokens) rest
  | single {tree : TypeTree} {tokens rest : List Token} (h : Derives (.primary tree) tokens rest) :
    Derives (.type tree) tokens rest
  | union {members : List TypeTree} {tokens rest : List Token} (hmembers : 2 ≤ members.length)
    (h : Derives (.separated '|' (members.map .primary)) tokens rest) :
    Derives (.type (.union members)) tokens rest
  | bareProperty {key : String} {tree : TypeTree} {tokens rest : List Token}
    (h : Derives (.type tree) tokens rest) :
    Derives (.property key tree) (.word key :: .mark ':' :: tokens) rest
  | quotedProperty {key : String} {tree : TypeTree} {tokens rest : List Token}
    (h : Derives (.type tree) tokens rest) :
    Derives (.property key tree) (.literal key :: .mark ':' :: tokens) rest

def ReadsAs (text : String) (tree : TypeTree) : Prop :=
  ∃ tokens, lex text.toList = some tokens ∧ Derives (.type tree) tokens []

/-- The only marks that a phrase begins with open a tuple or an object type. -/
theorem Derives.opening {phrase : Phrase} {mark : Char} {tokens rest : List Token}
    (h : Derives phrase (.mark mark :: tokens) rest) : mark = '[' ∨ mark = '\x7b' := by
  generalize hall : Token.mark mark :: tokens = all at h
  induction h with
  | word | keyword | literal | apply | bareProperty | quotedProperty => cases hall
  | last _ ih | next _ _ ih _ | name _ _ ih | single _ ih | union _ _ ih => exact ih hall
  | emptyTuple | tuple => exact .inl (Token.mark.inj (List.cons.inj hall).1)
  | emptyObject | object => exact .inr (Token.mark.inj (List.cons.inj hall).1)

/-- A list of phrases is its last one, or goes on after a mark. -/
theorem Derives.separated_cases {mark : Char} {parts : List Phrase} {tokens rest : List Token}
    (h : Derives (.separated mark parts) tokens rest) :
    (∃ part, parts = [part] ∧ Derives part tokens rest) ∨
      ∃ part others middle, parts = part :: others ∧
        Derives part tokens (.mark mark :: middle) ∧
        Derives (.separated mark others) middle rest := by
  cases h with
  | last h => exact .inl ⟨_, rfl, h⟩
  | next h hparts => exact .inr ⟨_, _, _, rfl, h, hparts⟩

theorem Derives.path_word {path : List String} {token : Token} {tokens rest : List Token}
    (h : Derives (.separated '.' (path.map .word)) (token :: tokens) rest) :
    ∃ text, token = .word text := by
  rcases h.separated_cases with ⟨part, hparts, hpart⟩ | ⟨part, _, _, hparts, hpart, -⟩
  · obtain ⟨text, -, rfl⟩ := List.map_eq_singleton_iff.mp hparts
    cases hpart
    exact ⟨text, rfl⟩
  · obtain ⟨text, _, -, rfl, -⟩ := List.map_eq_cons_iff.mp hparts
    cases hpart
    exact ⟨text, rfl⟩

theorem Derives.path_single {path : List String} {text : String} {tokens rest : List Token}
    (h : Derives (.separated '.' (path.map .word)) (.word text :: tokens) rest)
    (hdot : tokens.head? ≠ some (.mark '.')) : path = [text] ∧ tokens = rest := by
  rcases h.separated_cases with ⟨part, hparts, hpart⟩ | ⟨part, _, _, hparts, hpart, -⟩
  · obtain ⟨_, rfl, rfl⟩ := List.map_eq_singleton_iff.mp hparts
    cases hpart
    exact ⟨rfl, rfl⟩
  · obtain ⟨_, _, -, rfl, -⟩ := List.map_eq_cons_iff.mp hparts
    cases hpart
    exact absurd rfl hdot

inductive Category where
  | word
  | primary
  | type
  | property
  | separated (mark : Char) (part : Category)

namespace Category

def continuations : Category → List Char
  | .word => []
  | .primary => ['.', '<']
  | .type | .property => ['.', '<', '|']
  | .separated mark part => mark :: part.continuations

def Stops (category : Category) (rest : List Token) : Prop :=
  ∀ mark ∈ category.continuations, rest.head? ≠ some (.mark mark)

theorem Stops.mono {category narrower : Category} {rest : List Token} (h : category.Stops rest)
    (hsub : narrower.continuations ⊆ category.continuations) : narrower.Stops rest :=
  fun mark hm => h mark (hsub hm)

theorem Stops.ne {category : Category} {mark : Char} {rest : List Token}
    (h : category.Stops (.mark mark :: rest)) : mark ∉ category.continuations :=
  fun hm => h mark hm rfl

theorem stops_mark {category : Category} {mark : Char} (h : mark ∉ category.continuations)
    (rest : List Token) : category.Stops (.mark mark :: rest) := by
  intro other hm hhead
  obtain rfl : mark = other := Token.mark.inj (Option.some.inj hhead)
  exact h hm

end Category

/-- Two phrases of one category. A mark between two parts never goes on with
the first of them. -/
inductive Comparable : Category → Phrase → Phrase → Prop where
  | word (text other : String) : Comparable .word (.word text) (.word other)
  | primary (tree other : TypeTree) : Comparable .primary (.primary tree) (.primary other)
  | type (tree other : TypeTree) : Comparable .type (.type tree) (.type other)
  | property (key other : String) (tree value : TypeTree) :
    Comparable .property (.property key tree) (.property other value)
  | separated {category : Category} {mark : Char} {parts others : List Phrase}
    (hmark : mark ∉ category.continuations)
    (h : ∀ part ∈ parts, ∀ other ∈ others, Comparable category part other) :
    Comparable (.separated mark category) (.separated mark parts) (.separated mark others)

def Unique (phrase : Phrase) (tokens rest : List Token) : Prop :=
  ∀ ⦃category other rest'⦄, Comparable category phrase other → Derives other tokens rest' →
    category.Stops rest → category.Stops rest' → phrase = other ∧ rest = rest'

section Lists

variable {mark : Char} {part : Phrase} {parts : List Phrase} {tokens middle rest rest' : List Token}

theorem unique_last (ih : Unique part tokens rest) :
    Unique (.separated mark [part]) tokens rest := by
  rintro _ _ _ (_ | _ | _ | _ | ⟨hmark, hsame⟩) h' hstops hstops'
  have hpart := hstops.mono (List.subset_cons_self _ _)
  cases h' with
  | last h' =>
    obtain ⟨rfl, rfl⟩ := ih (hsame _ (by simp) _ (by simp)) h' hpart
      (hstops'.mono (List.subset_cons_self _ _))
    exact ⟨rfl, rfl⟩
  | next h' _ =>
    obtain ⟨-, rfl⟩ := ih (hsame _ (by simp) _ (by simp)) h' hpart (Category.stops_mark hmark _)
    exact absurd (List.mem_cons_self ..) hstops.ne

theorem unique_next (ih : Unique part tokens (.mark mark :: middle))
    (ihparts : Unique (.separated mark parts) middle rest) :
    Unique (.separated mark (part :: parts)) tokens rest := by
  rintro _ _ _ (_ | _ | _ | _ | ⟨hmark, hsame⟩) h' hstops hstops'
  have hpart := Category.stops_mark hmark
  cases h' with
  | last h' =>
    obtain ⟨-, rfl⟩ := ih (hsame _ (by simp) _ (by simp)) h' (hpart _)
      (hstops'.mono (List.subset_cons_self _ _))
    exact absurd (List.mem_cons_self ..) hstops'.ne
  | next h' hothers =>
    obtain ⟨rfl, hmiddle⟩ := ih (hsame _ (by simp) _ (by simp)) h' (hpart _) (hpart _)
    obtain ⟨-, rfl⟩ := List.cons.inj hmiddle
    have htail := Comparable.separated hmark fun part hm other ho =>
      hsame part (List.mem_cons_of_mem _ hm) other (List.mem_cons_of_mem _ ho)
    obtain ⟨⟨⟩, rfl⟩ := ihparts htail hothers hstops hstops'
    exact ⟨rfl, rfl⟩

/-- Two readings of tokens as lists of one kind of phrase. -/
theorem Unique.items {α : Type} {category : Category} {phrase : α → Phrase} {items others : List α}
    (ih : Unique (.separated mark (items.map phrase)) tokens rest)
    (hinj : ∀ a b, phrase a = phrase b → a = b)
    (hsame : ∀ a b, Comparable category (phrase a) (phrase b))
    (hmark : mark ∉ category.continuations)
    (h' : Derives (.separated mark (others.map phrase)) tokens rest')
    (hstops : (Category.separated mark category).Stops rest)
    (hstops' : (Category.separated mark category).Stops rest') : items = others ∧ rest = rest' := by
  have hlists : Comparable (.separated mark category) (.separated mark (items.map phrase))
      (.separated mark (others.map phrase)) := by
    refine .separated hmark fun part hp other ho => ?_
    obtain ⟨a, -, rfl⟩ := List.mem_map.mp hp
    obtain ⟨b, -, rfl⟩ := List.mem_map.mp ho
    exact hsame a b
  obtain ⟨heq, rfl⟩ := ih hlists h' hstops hstops'
  exact ⟨(List.map_inj_right hinj).mp (Phrase.separated.inj heq).2, rfl⟩

theorem Unique.types {items others : List TypeTree} {close : Char}
    (ih : Unique (.separated ',' (items.map .type)) tokens (.mark close :: rest))
    (hclose : close ∉ (Category.separated ',' .type).continuations)
    (h' : Derives (.separated ',' (others.map .type)) tokens (.mark close :: rest')) :
    items = others ∧ rest = rest' := by
  obtain ⟨rfl, hrest⟩ := ih.items (fun _ _ => Phrase.type.inj) Comparable.type (by decide) h'
    (Category.stops_mark hclose _) (Category.stops_mark hclose _)
  exact ⟨rfl, (List.cons.inj hrest).2⟩

end Lists

section Types

variable {tree : TypeTree} {tokens rest : List Token}

theorem unique_primary (h : ∀ ⦃other rest'⦄, Derives (.primary other) tokens rest' →
      Category.primary.Stops rest → Category.primary.Stops rest' → tree = other ∧ rest = rest') :
    Unique (.primary tree) tokens rest := by
  rintro _ _ _ ⟨⟩ h' hstops hstops'
  obtain ⟨rfl, rfl⟩ := h h' hstops hstops'
  exact ⟨rfl, rfl⟩

theorem unique_keyword {keyword : Keyword} {text : String} (htext : keyword.text = text) :
    Unique (.primary (.keyword keyword)) (.word text :: rest) rest := by
  refine unique_primary fun other rest' h' hstops _ => ?_
  cases h' with
  | keyword htext' =>
    cases Keyword.text_injective (htext.trans htext'.symm)
    exact ⟨rfl, rfl⟩
  | name hpath h' =>
    obtain ⟨rfl, -⟩ := h'.path_single (hstops '.' (by decide))
    exact absurd (by rw [htext]) (hpath keyword)
  | apply => exact absurd (by decide) hstops.ne

theorem unique_name {path : List String} (hpath : ∀ keyword : Keyword, path ≠ [keyword.text])
    (h : Derives (.separated '.' (path.map .word)) tokens rest)
    (ih : Unique (.separated '.' (path.map .word)) tokens rest) :
    Unique (.primary (.name path)) tokens rest := by
  refine unique_primary fun other rest' h' hstops hstops' => ?_
  cases h' with
  | keyword htext =>
    have hdot : '.' ∈ Category.primary.continuations := by decide
    obtain ⟨rfl, -⟩ := h.path_single (hstops' _ hdot)
    exact absurd (by rw [htext]) (hpath _)
  | name _ h' =>
    obtain ⟨rfl, rfl⟩ := ih.items (fun _ _ => Phrase.word.inj) Comparable.word (by decide) h'
      (hstops.mono (by decide)) (hstops'.mono (by decide))
    exact ⟨rfl, rfl⟩
  | apply =>
    obtain ⟨-, rfl⟩ := h.path_single (by simp)
    exact absurd (by decide) hstops.ne
  | literal | emptyTuple | tuple | emptyObject | object => obtain ⟨_, ⟨⟩⟩ := h.path_word

theorem unique_literal (value : String) :
    Unique (.primary (.literal value)) (.literal value :: rest) rest := by
  refine unique_primary fun other rest' h' _ _ => ?_
  cases h' with
  | literal => exact ⟨rfl, rfl⟩
  | name _ h' => obtain ⟨_, ⟨⟩⟩ := h'.path_word

theorem unique_apply {head : Generic} {text : String} {arguments : List TypeTree}
    (hhead : head.text = text)
    (ih : Unique (.separated ',' (arguments.map .type)) tokens (.mark '>' :: rest)) :
    Unique (.primary (.apply head arguments)) (.word text :: .mark '<' :: tokens) rest := by
  refine unique_primary fun other rest' h' _ hstops' => ?_
  cases h' with
  | keyword => exact absurd (by decide) hstops'.ne
  | name _ h' =>
    obtain ⟨-, rfl⟩ := h'.path_single (by simp)
    exact absurd (by decide) hstops'.ne
  | apply hhead' h' =>
    cases Generic.text_injective (hhead.trans hhead'.symm)
    obtain ⟨rfl, rfl⟩ := ih.types (by decide) h'
    exact ⟨rfl, rfl⟩

theorem unique_emptyTuple :
    Unique (.primary (.tuple [])) (.mark '[' :: .mark ']' :: rest) rest := by
  refine unique_primary fun other rest' h' _ _ => ?_
  cases h' with
  | emptyTuple => exact ⟨rfl, rfl⟩
  | tuple h' => exact absurd h'.opening (by decide)
  | name _ h' => obtain ⟨_, ⟨⟩⟩ := h'.path_word

theorem unique_tuple {items : List TypeTree}
    (h : Derives (.separated ',' (items.map .type)) tokens (.mark ']' :: rest))
    (ih : Unique (.separated ',' (items.map .type)) tokens (.mark ']' :: rest)) :
    Unique (.primary (.tuple items)) (.mark '[' :: tokens) rest := by
  refine unique_primary fun other rest' h' _ _ => ?_
  cases h' with
  | emptyTuple => exact absurd h.opening (by decide)
  | tuple h' =>
    obtain ⟨rfl, rfl⟩ := ih.types (by decide) h'
    exact ⟨rfl, rfl⟩
  | name _ h' => obtain ⟨_, ⟨⟩⟩ := h'.path_word

theorem unique_emptyObject :
    Unique (.primary (.object [])) (.mark '\x7b' :: .mark '\x7d' :: rest) rest := by
  refine unique_primary fun other rest' h' _ _ => ?_
  cases h' with
  | emptyObject => exact ⟨rfl, rfl⟩
  | object h' => exact absurd h'.opening (by decide)
  | name _ h' => obtain ⟨_, ⟨⟩⟩ := h'.path_word

theorem unique_object {properties : List (String × TypeTree)}
    (h : Derives (.separated ',' (properties.map fun (key, tree) => .property key tree)) tokens
      (.mark '\x7d' :: rest))
    (ih : Unique (.separated ',' (properties.map fun (key, tree) => .property key tree)) tokens
      (.mark '\x7d' :: rest)) :
    Unique (.primary (.object properties)) (.mark '\x7b' :: tokens) rest := by
  refine unique_primary fun other rest' h' _ _ => ?_
  cases h' with
  | emptyObject => exact absurd h.opening (by decide)
  | object h' =>
    obtain ⟨rfl, hrest⟩ := ih.items (fun _ _ heq => Prod.ext_iff.mpr (Phrase.property.inj heq))
      (fun _ _ => Comparable.property _ _ _ _) (by decide) h'
      (Category.stops_mark (by decide) _) (Category.stops_mark (by decide) _)
    exact ⟨rfl, (List.cons.inj hrest).2⟩
  | name _ h' => obtain ⟨_, ⟨⟩⟩ := h'.path_word

theorem unique_single (ih : Unique (.primary tree) tokens rest) :
    Unique (.type tree) tokens rest := by
  rintro _ _ _ ⟨⟩ h' hstops hstops'
  have hprimary : Category.primary.Stops rest := hstops.mono (by decide)
  cases h' with
  | single h' =>
    obtain ⟨⟨⟩, rfl⟩ := ih (.primary _ _) h' hprimary (hstops'.mono (by decide))
    exact ⟨rfl, rfl⟩
  | union hmembers h' =>
    -- the tree would be the first member, and a bar would come next
    rcases h'.separated_cases with ⟨_, hparts, -⟩ | ⟨_, _, middle, hparts, hpart, -⟩
    · obtain ⟨_, rfl, -⟩ := List.map_eq_singleton_iff.mp hparts
      simp at hmembers
    · obtain ⟨_, _, -, rfl, -⟩ := List.map_eq_cons_iff.mp hparts
      obtain ⟨-, rfl⟩ := ih (.primary _ _) hpart hprimary (Category.stops_mark (by decide) _)
      exact absurd (by decide) hstops.ne

theorem unique_union {members : List TypeTree} (hmembers : 2 ≤ members.length)
    (ih : Unique (.separated '|' (members.map .primary)) tokens rest) :
    Unique (.type (.union members)) tokens rest := by
  rintro _ _ _ ⟨⟩ h' hstops hstops'
  have hlists {others : List TypeTree} {rest' : List Token}
      (hothers : Derives (.separated '|' (others.map .primary)) tokens rest')
      (hstops' : Category.type.Stops rest') : members = others ∧ rest = rest' :=
    ih.items (fun _ _ => Phrase.primary.inj) Comparable.primary (by decide) hothers
      (hstops.mono (by decide)) (hstops'.mono (by decide))
  cases h' with
  | single h' =>
    have hlast : Derives (.separated '|' ([_].map .primary)) tokens _ := .last h'
    obtain ⟨rfl, -⟩ := hlists hlast hstops'
    simp at hmembers
  | union _ h' =>
    obtain ⟨rfl, rfl⟩ := hlists h' hstops'
    exact ⟨rfl, rfl⟩

end Types

/-- Tokens that begin with a phrase begin with no other of its category, if
nothing that comes after goes on with it. -/
theorem Derives.unique {phrase : Phrase} {tokens rest : List Token}
    (h : Derives phrase tokens rest) : Unique phrase tokens rest := by
  induction h with
  | word =>
    rintro _ _ _ ⟨⟩ ⟨⟩ _ _
    exact ⟨rfl, rfl⟩
  | last _ ih => exact unique_last ih
  | next _ _ ih ihparts => exact unique_next ih ihparts
  | keyword htext => exact unique_keyword htext
  | name hpath h ih => exact unique_name hpath h ih
  | literal value => exact unique_literal value
  | apply hhead _ ih => exact unique_apply hhead ih
  | emptyTuple => exact unique_emptyTuple
  | tuple h ih => exact unique_tuple h ih
  | emptyObject => exact unique_emptyObject
  | object h ih => exact unique_object h ih
  | single _ ih => exact unique_single ih
  | union hmembers _ ih => exact unique_union hmembers ih
  | bareProperty _ ih =>
    rintro _ _ _ ⟨⟩ h' hstops hstops'
    cases h' with
    | bareProperty h' =>
      obtain ⟨⟨⟩, rfl⟩ := ih (.type _ _) h' hstops hstops'
      exact ⟨rfl, rfl⟩
  | quotedProperty _ ih =>
    rintro _ _ _ ⟨⟩ h' hstops hstops'
    cases h' with
    | quotedProperty h' =>
      obtain ⟨⟨⟩, rfl⟩ := ih (.type _ _) h' hstops hstops'
      exact ⟨rfl, rfl⟩

theorem ReadsAs.unique {text : String} {tree other : TypeTree} (h : ReadsAs text tree)
    (h' : ReadsAs text other) : tree = other := by
  obtain ⟨tokens, hlex, hderives⟩ := h
  obtain ⟨tokens', hlex', hderives'⟩ := h'
  obtain rfl : tokens = tokens' := Option.some.inj (hlex.symm.trans hlex')
  have hend : Category.type.Stops [] := by simp [Category.Stops]
  exact Phrase.type.inj (hderives.unique (.type _ _) hderives' hend hend).1

end ContractClients.TypeScript
