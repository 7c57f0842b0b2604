import EditorInsight.Proofs.Source.OfferedSymbols

/-!
# Well-formed outlines

Every symbol that a scan makes passes the check of symbols, also one that a later symbol of the same name
replaces, so a scan that checks each symbol as it makes it never fails. In the outline each symbol stands
under its own name, which is an identifier, and its signature shows that name as its kind demands.
-/

namespace EditorInsight

open Text

namespace Symbol

/-- The signature is that of a definition, plain or asynchronous, that shows the given text as its name. -/
def Defines (shown signature : Text) : Prop :=
  (("def " : Text) ++ shown ++ ['(']) <+: signature ∨ (("async def " : Text) ++ shown ++ ['(']) <+: signature

/-- The signature shows the name of the symbol, a method's with that of its class. -/
def ShowsName (s : Symbol) : Prop :=
  match s.kind with
  | .function => Defines s.name s.signature
  | .classDecl => s.signature = ("class " : Text) ++ s.name ∨
    ∃ bases, bases ≠ [] ∧ s.signature = ("class " : Text) ++ s.name ++ ['('] ++ bases ++ [')']
  | .binding => s.signature = s.name ++ " = ..."
  | .method owner => Defines (owner ++ ['.'] ++ s.name) s.signature

structure WellFormed (s : Symbol) : Prop where
  isIdentifier_name : isIdentifier s.name = true
  isIdentifier_owner : ∀ owner ∈ s.kind.owner?, isIdentifier owner = true
  showsName : s.ShowsName

theorem WellFormed.check_eq {s : Symbol} (h : s.WellFormed) :
    (SymbolRecord.ofSymbol s).check = .ok (SymbolRecord.ofSymbol s) := by
  obtain ⟨kind, name, signature⟩ := s
  cases kind with
  | function => rfl
  | classDecl => rfl
  | binding => rfl
  | method owner =>
    have howner : isIdentifier owner = true := h.isIdentifier_owner owner rfl
    cases owner with
    | nil => cases howner
    | cons c r => rfl

end Symbol

namespace Outline

variable {layout : Layout}

/-! The symbols that are made. -/

theorem defines_format (hd : Header) (owner : Text) :
    Symbol.Defines (if owner.isEmpty then hd.name else owner ++ ['.'] ++ hd.name) (hd.format owner) := by
  unfold Header.format
  have hopening (keyword shown parameters result : Text) :
      (keyword ++ shown ++ ['(']) <+: keyword ++ shown ++ ['('] ++ parameters ++ [')'] ++ result :=
    ((List.prefix_append _ _).trans (List.prefix_append _ _)).trans (List.prefix_append _ _)
  cases hd.isAsync with
  | false => exact Or.inl (hopening _ _ _ _)
  | true => exact Or.inr (hopening _ _ _ _)

theorem wellFormed_functionSymbol {cut : Text → Text} {line : Text} {rest : List Text} {hd : Header} {n : Nat}
    (h : headerAt? layout cut line rest = some (hd, n)) : (functionSymbol hd).WellFormed :=
  ⟨isIdentifier_of_headerAt? h, nofun, defines_format hd []⟩

theorem wellFormed_methodSymbol {cut : Text → Text} {line owner : Text} {rest : List Text} {hd : Header} {n : Nat}
    (howner : isIdentifier owner = true) (h : headerAt? layout cut line rest = some (hd, n)) :
    (methodSymbol owner hd).WellFormed := by
  refine ⟨isIdentifier_of_headerAt? h, fun o ho => ?_, ?_⟩
  · obtain rfl := Option.some.inj ho
    exact howner
  · have hformat := defines_format hd owner
    cases owner with
    | nil => cases howner
    | cons c r => exact hformat

theorem wellFormed_classSymbol {name : Text} (hname : isIdentifier name = true) (bases : Text) :
    (classSymbol name bases).WellFormed := by
  refine ⟨hname, nofun, ?_⟩
  cases bases with
  | nil => exact Or.inl (List.append_nil _)
  | cons c r => exact Or.inr ⟨c :: r, by simp, by simp [classSymbol]⟩

theorem wellFormed_of_findingAt? {index n : Nat} {line : Text} {rest : List Text} {f : Finding}
    (h : findingAt? layout index line rest = some (f, n)) :
    f.symbol.WellFormed ∧ f.symbol.kind.owner? = none := by
  obtain ⟨-, -, ⟨hd, m, hheader, -, rfl⟩ | ⟨name, bases, hclass, -, rfl⟩ | ⟨name, -, -, rfl⟩⟩ :=
    findingAt?_cases h
  · exact ⟨wellFormed_functionSymbol hheader, rfl⟩
  · obtain ⟨b, r, -, -, -, hname, -⟩ := Declaration.exists_of_classLine? hclass
    exact ⟨wellFormed_classSymbol hname bases, rfl⟩
  · exact ⟨⟨(shownAs_of_findingAt? h).isIdentifier, nofun, rfl⟩, rfl⟩

/-! A scan that checks each symbol as it makes it. -/

def putChecked (m : OrderedMap Text Symbol) (s : Symbol) : Except SymbolFault (OrderedMap Text Symbol) := do
  let _ ← (SymbolRecord.ofSymbol s).check
  return m.put s.name s

def recordChecked (layout : Layout) (lines : List Text) (o : Outline) (f : Finding) :
    Except SymbolFault Outline := do
  let topLevel ← putChecked o.topLevel f.symbol
  let found ← (bodyFindings layout lines f).foldlM
    (fun m g => putChecked m (methodSymbol f.symbol.name g.header)) {}
  return ⟨topLevel, if found.isEmpty then o.methods else o.methods.put f.symbol.name found⟩

/-- The outline of a text, or the first fault of a symbol that is made on the way, whether or not that
symbol is replaced later. -/
def ofTextChecked (layout : Layout) (t : Text) : Except SymbolFault Outline :=
  (findingsOf layout t).foldlM (recordChecked layout (splitLines t)) {}

/-- The findings in a text are well-formed, and so are the methods in their bodies. -/
theorem wellFormed_of_mem_findingsOf {t : Text} {f : Finding} (h : f ∈ findingsOf layout t) :
    f.symbol.WellFormed ∧ f.symbol.kind.owner? = none ∧
      ∀ g ∈ bodyFindings layout (splitLines t) f, (methodSymbol f.symbol.name g.header).WellFormed := by
  obtain ⟨line, n, -, hat⟩ := exists_line_of_mem h
  obtain ⟨hsymbol, howner⟩ := wellFormed_of_findingAt? hat
  refine ⟨hsymbol, howner, fun g hg => ?_⟩
  rw [bodyFindings_of_class (class_of_mem_bodyFindings hg)] at hg
  obtain ⟨j, line', rest', -, -, -, hheader⟩ := exists_headerAt?_of_mem hg
  exact wellFormed_methodSymbol hsymbol.isIdentifier_name hheader

end Outline

theorem foldlM_eq_ok {ε α β : Type} {f : β → α → Except ε β} {g : β → α → β} {xs : List α}
    (h : ∀ x ∈ xs, ∀ b, f b x = .ok (g b x)) (b : β) : xs.foldlM f b = .ok (xs.foldl g b) := by
  induction xs generalizing b with
  | nil => rfl
  | cons x xs ih =>
    obtain ⟨hx, hxs⟩ := List.forall_mem_cons.mp h
    rw [List.foldlM_cons, hx, List.foldl_cons]
    exact ih hxs (g b x)

namespace Outline

variable {layout : Layout}

theorem putChecked_eq {s : Symbol} (h : s.WellFormed) (m : OrderedMap Text Symbol) :
    putChecked m s = .ok (m.put s.name s) := by
  rw [putChecked, h.check_eq]
  rfl

theorem recordChecked_eq {t : Text} {f : Finding} (h : f ∈ findingsOf layout t) (o : Outline) :
    recordChecked layout (splitLines t) o f = .ok (o.record f) := by
  obtain ⟨hsymbol, -, hbody⟩ := wellFormed_of_mem_findingsOf h
  have hfound : (bodyFindings layout (splitLines t) f).foldlM
      (fun m g => putChecked m (methodSymbol f.symbol.name g.header)) {} = .ok f.methods := by
    rw [methods_eq_foldl_of_mem h]
    exact foldlM_eq_ok (fun g hg m => putChecked_eq (hbody g hg) m) {}
  rw [recordChecked, putChecked_eq hsymbol, hfound, record]
  change Except.ok (Outline.mk _ (if f.methods.isEmpty then _ else _)) = _
  cases f.methods.isEmpty <;> rfl

/-- Each symbol of an outline stands under its own name, the methods of a class under the name of a symbol
at the top level. -/
structure WellFormed (o : Outline) : Prop where
  topLevel : ∀ name s, (name, s) ∈ o.topLevel.entries →
    s.name = name ∧ s.kind.owner? = none ∧ s.WellFormed
  methods : ∀ owner ms, (owner, ms) ∈ o.methods.entries →
    ms.isEmpty = false ∧ owner ∈ o.topLevel.keys ∧
      ∀ name s, (name, s) ∈ ms.entries → s.name = name ∧ s.kind = .method owner ∧ s.WellFormed

theorem exists_finding_of_topLevel {t name : Text} {s : Symbol}
    (h : (ofText layout t).topLevel.get? name = some s) :
    ∃ f ∈ findingsOf layout t, f.symbol = s ∧ s.name = name := by
  rw [topLevel_get?_ofText] at h
  obtain ⟨f, hlast, rfl⟩ := Option.map_eq_some_iff.mp h
  exact ⟨f, List.mem_reverse.mp (List.mem_of_find?_eq_some hlast), rfl, by simpa using List.find?_some hlast⟩

theorem mem_keys_topLevel {t : Text} {f : Finding} (h : f ∈ findingsOf layout t) :
    f.symbol.name ∈ (ofText layout t).topLevel.keys := by
  obtain ⟨g, hlast⟩ : ∃ g, (findingsOf layout t).reverse.find? (fun g => g.symbol.name = f.symbol.name) = some g :=
    Option.isSome_iff_exists.mp (List.find?_isSome.mpr ⟨f, List.mem_reverse.mpr h, by simp⟩)
  have hget := topLevel_get?_ofText layout t f.symbol.name
  rw [hlast] at hget
  exact OrderedMap.mem_keys_of_get? hget

theorem nodup_keys_methods_of_mem {t : Text} {f : Finding} (h : f ∈ findingsOf layout t) : f.methods.keys.Nodup := by
  rw [methods_eq_foldl_of_mem h]
  exact OrderedMap.nodup_keys_foldl_put _ _ _ List.nodup_nil

theorem wellFormed_of_mem_methods {t name : Text} {f : Finding} {s : Symbol} (h : f ∈ findingsOf layout t)
    (hs : (name, s) ∈ f.methods.entries) :
    s.name = name ∧ s.kind = .method f.symbol.name ∧ s.WellFormed := by
  obtain ⟨-, -, hbody⟩ := wellFormed_of_mem_findingsOf h
  have hget := OrderedMap.get?_of_mem (nodup_keys_methods_of_mem h) hs
  rw [methods_eq_foldl_of_mem h, OrderedMap.get?_foldl_put] at hget
  change Option.or _ none = _ at hget
  rw [Option.or_none] at hget
  obtain ⟨g, hlast, rfl⟩ := Option.map_eq_some_iff.mp hget
  have hname : g.header.name = name := by simpa using List.find?_some hlast
  exact ⟨hname, rfl, hbody g (List.mem_reverse.mp (List.mem_of_find?_eq_some hlast))⟩

theorem nodup_keys_methods_ofText {t owner : Text} {ms : OrderedMap Text Symbol}
    (h : (ofText layout t).methods.get? owner = some ms) : ms.keys.Nodup := by
  rw [ofText_eq_foldl] at h
  rcases exists_finding_of_methods _ _ h with hempty | ⟨f, hf, -, rfl, -⟩
  · cases hempty
  · exact nodup_keys_methods_of_mem hf

theorem wellFormed_ofText (layout : Layout) (t : Text) : (ofText layout t).WellFormed := by
  have hdistinct := keysDistinct_ofText layout t
  constructor
  · intro name s hs
    obtain ⟨f, hf, rfl, hname⟩ := exists_finding_of_topLevel (OrderedMap.get?_of_mem hdistinct.topLevel hs)
    obtain ⟨hsymbol, howner, -⟩ := wellFormed_of_mem_findingsOf hf
    exact ⟨hname, howner, hsymbol⟩
  · intro owner ms hms
    have hget := OrderedMap.get?_of_mem hdistinct.methods hms
    rw [ofText_eq_foldl] at hget
    rcases exists_finding_of_methods _ _ hget with hempty | ⟨f, hf, rfl, rfl, hne⟩
    · cases hempty
    · exact ⟨hne, mem_keys_topLevel hf, fun name s hs => wellFormed_of_mem_methods hf hs⟩

/-- Whatever a text says and however lines are read, no symbol that is made on the way to its outline fails
its check, and the outline is well-formed. -/
theorem checked_outline_wellFormed (layout : Layout) (t : Text) :
    ofTextChecked layout t = .ok (ofText layout t) ∧ (ofText layout t).WellFormed := by
  refine ⟨?_, wellFormed_ofText layout t⟩
  rw [ofText_eq_foldl]
  exact foldlM_eq_ok (fun f hf o => recordChecked_eq hf o) {}

end Outline
end EditorInsight
