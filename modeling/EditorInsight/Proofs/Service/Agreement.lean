import EditorInsight.Proofs.Ambient.MemberSignature
import EditorInsight.Proofs.Library.Members
import EditorInsight.Proofs.Service.Recall
import EditorInsight.Proofs.Service.Refinement
import EditorInsight.Proofs.Source.OfferedSymbols

/-!
# Completion and hover agree

A completion lists what stands behind a chain; a hover looks the longer expression up anew. While the caches
hold only what is on the disk, what the one offers with a detail the other shows with that detail, for symbols
of modules, for methods of classes and for members of ambient objects.
-/

namespace EditorInsight

open Text

namespace Session

/-- What the caches hold is what is on the disk: a cached outline is that of the file under its key, and the
names cached for the workspace are those of the library. The age of each can be told. -/
structure Truthful (s : Session) : Prop where
  outlines : ∀ x ∈ s.outlines.entries, (∃ age, s.clock.sub x.2.loadedAt = .ok age) ∧
    ∀ path, s.disk.fileSystem.isFile path = true → s.moduleKey path = .ok x.1 →
      x.2.value = outlineOf s.layout (s.disk.read path).1
  imports : ∀ e, s.imports.slot = some e → e.key = s.configuration.workspace →
    (∃ age, s.clock.sub e.loadedAt = .ok age) ∧ s.disk.probe s.library.importNames = .ok e.names

variable {s s' : Session}

theorem Truthful.cachedAnswer_imports (hs : s.Truthful) :
    s.cachedAnswer .imports = (s.disk.probe s.library.importNames).mapError .path :=
  TruthfulImports.cachedAnswer_eq hs.imports

theorem Truthful.cachedAnswer_outline (hs : s.Truthful) {path : Text}
    (hfile : s.disk.fileSystem.isFile path = true) :
    s.cachedAnswer (.outline path) = .ok (outlineOf s.layout (s.disk.read path).1) := by
  have hpresent : s.disk.isPresent path = true := (FileSystem.isFile_iff.mp hfile).1
  obtain ⟨key, hkey⟩ : ∃ key, s.moduleKey path = .ok key := by
    rw [moduleKey, Path.canonical, s.disk.hasNull_of_isPresent path hpresent]
    exact ⟨_, rfl⟩
  rcases KeyedCache.lookup_cases (fun x hx => (hs.outlines x hx).1) key with
    ⟨e, cache, hlookup, hmem, -⟩ | ⟨isRefresh, hlookup⟩
  · rw [cachedAnswer_outline_of_hit hkey hlookup]
    exact congrArg Except.ok ((hs.outlines _ hmem).2 path hfile hkey)
  · rw [cachedAnswer_outline_of_load hkey hlookup]
    rfl

/-- Caches that are coherent, with no report to come, are truthful. -/
theorem Coherent.truthful (h : s.Coherent []) (hcurrent : ∀ name ∈ s.disk.current, Path.IsPlain name) :
    s.Truthful := by
  refine ⟨fun x hx => ?_, fun e he _ => ?_⟩
  · obtain ⟨hreached, place, hplain, -, hkey, hvalue | ⟨_, hpending, -⟩⟩ := h.outlines x hx
    · refine ⟨hreached.exists_sub, fun path hfile hpath => ?_⟩
      obtain ⟨hnull, place', bytes, harrive⟩ := s.disk.exists_arrive_of_isFile hfile
      have hplace' := Disk.place_of_arrive harrive
      -- Two places with one key are the same place.
      obtain rfl : place' = place := by
        rw [moduleKey, Path.canonical, hnull, ← hplace', hkey] at hpath
        refine Path.ofPlace_injective ?_ hplain (Except.ok.inj hpath)
        rw [hplace']
        exact Path.isPlain_of_mem_place hcurrent path
      rw [hvalue, Disk.read_of_arrive harrive hnull]
    · cases hpending
  · obtain ⟨-, hreached, hnames | ⟨_, hpending, -⟩⟩ := h.imports e he
    · exact ⟨hreached.exists_sub, hnames⟩
    · cases hpending

/-! What the disk declares under a dotted name, whatever is cached. -/

/-- The symbol that a selection stands for in an outline. -/
def selected? (o : Outline) : Selection → Option Symbol
  | .whole => none
  | .member name => o.topLevel.get? name
  | .method owner name => o.method? owner name

/-- The first part of the dotted name can be imported, and the name leads to the symbol of a module. -/
def Declares (s : Session) (dotted : Text) (symbol : Symbol) : Prop :=
  ∃ first others names path selection, splitDotted dotted = first :: others ∧
    s.disk.probe s.library.importNames = .ok names ∧ names.elem first = true ∧
    s.disk.probe (s.library.target? dotted) = .ok (some ⟨path, selection⟩) ∧
    selected? (outlineOf s.layout (s.disk.read path).1) selection = some symbol

theorem mapError_eq_ok_iff {ε ε' α : Type} {g : ε → ε'} {x : Except ε α} {a : α} :
    x.mapError g = .ok a ↔ x = .ok a := by
  cases x <;> simp [Except.mapError]

theorem Declares.run_signature? (hs : s.Truthful) {dotted : Text} {symbol : Symbol}
    (h : s.Declares dotted symbol)
    (hroot : ∀ first ∈ (splitDotted dotted).head?, s.schema.isRoot first = false) :
    (s.workspace.signature? dotted false).run s.cachedAnswer = .ok (.ok (some symbol.signature)) := by
  obtain ⟨first, others, names, path, selection, hsplit, hnames, hfirst, htarget, hsymbol⟩ := h
  have hfile := Library.isFile_of_targetFrom? htarget
  have hlibrary : (s.workspace.libraryTarget? dotted).run s.cachedAnswer = .ok (some ⟨path, selection⟩) := by
    rw [run_libraryTarget?_cachedAnswer hsplit, hs.cachedAnswer_imports, hnames]
    change (if names.elem first = true then _ else _) = _
    rw [if_pos hfirst, htarget]
    rfl
  have houtline : (Workspace.targetSymbol? ⟨path, selection⟩).run s.cachedAnswer = .ok (some symbol) := by
    have hrun := s.run_outline_cachedAnswer path
    rw [hs.cachedAnswer_outline hfile] at hrun
    cases selection with
    | whole => cases hsymbol
    | member name =>
      unfold Workspace.targetSymbol?
      dsimp only
      rw [Dialogue.run_bind, hrun, ← hsymbol]
      rfl
    | method owner name =>
      unfold Workspace.targetSymbol?
      dsimp only
      rw [Dialogue.run_bind, hrun, ← hsymbol]
      rfl
  have hnot : s.schema.isRoot first = false := hroot first (by rw [hsplit]; rfl)
  unfold Workspace.signature?
  rw [hsplit]
  dsimp only
  have hschema : s.workspace.schema = s.schema := rfl
  rw [hschema, hnot, if_neg Bool.false_ne_true, Dialogue.run_bind, hlibrary]
  change Dialogue.run s.cachedAnswer (Workspace.targetSymbol? ⟨path, selection⟩ >>= _) = _
  rw [Dialogue.run_bind, houtline]
  rfl

theorem probe_target?_append {chain label path : Text} {selection : Selection} {item : Option LibraryItem}
    (hchain : isChain chain = true) (hlabel : isIdentifier label = true)
    (hitem : s.disk.probe (s.library.item? (splitDotted chain)) = .ok item)
    (hnot : ∀ path, item ≠ some (.package path))
    (h : s.disk.probe (s.library.target? chain) = .ok (some ⟨path, selection⟩)) :
    ∃ rest, selection = .ofParts rest ∧ s.disk.probe (s.library.target? (chain ++ '.' :: label)) =
      .ok (some ⟨path, .ofParts (rest ++ [label])⟩) := by
  have hwords : ∀ part ∈ splitDotted chain, IsWord part := fun part hpart =>
    Cursor.isWord_of_mem_splitDotted (Cursor.isExpressionChar_of_isChain hchain) hpart
  unfold Library.target?
  rw [splitDotted_append hlabel]
  dsimp only
  rw [List.length_append, List.length_singleton]
  exact Library.probe_target?_concat hwords (isWord_of_isIdentifier hlabel) hitem hnot h

theorem shown_of_symbolItems_topLevel {layout : Outline.Layout} {read : Option Text} {label detail : Text}
    {item : CompletionItem} (hitem : item ∈ Workspace.symbolItems (outlineOf layout read).topLevel)
    (hlabel : item.label = .text label) (hdetail : item.detail = some detail) :
    ∃ symbol, (outlineOf layout read).topLevel.get? label = some symbol ∧ symbol.ShownAs label ∧
      symbol.signature = detail := by
  obtain ⟨name, symbol, hmem, rfl⟩ := Workspace.mem_symbolItems hitem
  obtain rfl := Value.text.inj hlabel
  cases read with
  | none => cases hmem
  | some text =>
    obtain ⟨hget, hshown⟩ := Outline.topLevel_of_mem hmem
    exact ⟨symbol, hget, hshown, Option.some.inj hdetail⟩

theorem shown_of_symbolItems_methods {layout : Outline.Layout} {read : Option Text} {owner label detail : Text}
    {item : CompletionItem}
    (hitem : item ∈ Workspace.symbolItems (((outlineOf layout read).methods.get? owner).getD {}))
    (hlabel : item.label = .text label) (hdetail : item.detail = some detail) :
    ∃ symbol, (outlineOf layout read).method? owner label = some symbol ∧ symbol.ShownAs label ∧
      symbol.signature = detail := by
  obtain ⟨name, symbol, hmem, rfl⟩ := Workspace.mem_symbolItems hitem
  obtain rfl := Value.text.inj hlabel
  cases hms : (outlineOf layout read).methods.get? owner with
  | none =>
    rw [hms] at hmem
    cases hmem
  | some ms =>
    rw [hms] at hmem
    cases read with
    | none => cases hms
    | some text =>
      obtain ⟨hget, hshown⟩ := Outline.method?_of_mem hms hmem
      exact ⟨symbol, hget, hshown, Option.some.inj hdetail⟩

theorem declares_of_moduleFile (hs : s.Truthful) {chain label detail path extension first : Text}
    {rest names : List Text} {items : List CompletionItem} {item : CompletionItem}
    (hchain : isChain chain = true) (hsplit : splitDotted chain = first :: rest)
    (hnames : s.disk.probe s.library.importNames = .ok names) (hfirst : names.elem first = true)
    (hfound : s.disk.probe (s.library.item? (splitDotted chain)) = .ok (some (.moduleFile path extension)))
    (h : (do return Workspace.symbolItems (← Inquiry.outline path).topLevel :
      Inquiry (List CompletionItem)).run s.cachedAnswer = .ok items)
    (hitem : item ∈ items) (hlabel : item.label = .text label) (hdetail : item.detail = some detail) :
    ∃ symbol, s.Declares (chain ++ '.' :: label) symbol ∧ symbol.ShownAs label ∧ symbol.signature = detail := by
  rw [Dialogue.run_bind, run_outline_cachedAnswer,
    hs.cachedAnswer_outline (Library.isFile_of_item? hfound)] at h
  obtain rfl := Except.ok.inj h
  obtain ⟨symbol, hget, hshown, hsignature⟩ := shown_of_symbolItems_topLevel hitem hlabel hdetail
  have hwhole := Library.probe_targetFrom?_of_item? hfound (splitDotted_ne_nil hchain)
  obtain ⟨parts, hparts, htarget⟩ := probe_target?_append hchain hshown.isIdentifier hfound (by simp) hwhole
  obtain rfl : parts = [] := by
    rcases parts with - | ⟨p, - | ⟨q, parts⟩⟩
    · rfl
    · cases hparts
    · cases hparts
  refine ⟨symbol, ⟨first, rest ++ [label], names, path, _, ?_, hnames, hfirst, htarget, hget⟩, hshown,
    hsignature⟩
  rw [splitDotted_append hshown.isIdentifier, hsplit]
  rfl

theorem declares_of_methodItems (hs : s.Truthful) {chain label detail first : Text} {rest names : List Text}
    {items : List CompletionItem} {item : CompletionItem} (hchain : isChain chain = true)
    (hsplit : splitDotted chain = first :: rest)
    (hnames : s.disk.probe s.library.importNames = .ok names) (hfirst : names.elem first = true)
    (hfound : s.disk.probe (s.library.item? (splitDotted chain)) = .ok none)
    (h : (s.workspace.methodItems chain).run s.cachedAnswer = .ok items) (hitem : item ∈ items)
    (hlabel : item.label = .text label) (hdetail : item.detail = some detail) :
    ∃ symbol, s.Declares (chain ++ '.' :: label) symbol ∧ symbol.ShownAs label ∧ symbol.signature = detail := by
  unfold Workspace.methodItems at h
  rw [Dialogue.run_bind, run_probe_cachedAnswer] at h
  obtain ⟨target, htarget, h⟩ := exists_of_bind_eq_ok h
  rw [mapError_eq_ok_iff] at htarget
  split at h
  · rename_i path owner
    rw [Dialogue.run_bind, run_outline_cachedAnswer,
      hs.cachedAnswer_outline (Library.isFile_of_targetFrom? htarget)] at h
    obtain rfl := Except.ok.inj h
    obtain ⟨symbol, hget, hshown, hsignature⟩ := shown_of_symbolItems_methods hitem hlabel hdetail
    obtain ⟨parts, hparts, hlonger⟩ := probe_target?_append hchain hshown.isIdentifier hfound (by simp) htarget
    obtain rfl : parts = [owner] := by
      rcases parts with - | ⟨p, - | ⟨q, parts⟩⟩
      · cases hparts
      · rw [Selection.member.inj hparts]
      · cases hparts
    refine ⟨symbol, ⟨first, rest ++ [label], names, path, _, ?_, hnames, hfirst, hlonger, hget⟩, hshown,
      hsignature⟩
    rw [splitDotted_append hshown.isIdentifier, hsplit]
    rfl
  · obtain rfl := Except.ok.inj h
    cases hitem

/-- What a completion of the library offers with a detail is declared on the disk. -/
theorem declares_of_libraryItems (hs : s.Truthful) {chain label detail : Text} {items : List CompletionItem}
    {item : CompletionItem} (hchain : isChain chain = true)
    (h : (s.workspace.libraryItems chain).run s.cachedAnswer = .ok items) (hitem : item ∈ items)
    (hlabel : item.label = .text label) (hdetail : item.detail = some detail) :
    ∃ symbol, s.Declares (chain ++ '.' :: label) symbol ∧ symbol.ShownAs label ∧ symbol.signature = detail := by
  unfold Workspace.libraryItems at h
  split at h
  · obtain rfl := Except.ok.inj h
    cases hitem
  · rename_i first rest hsplit
    rw [Dialogue.run_bind] at h
    obtain ⟨names, hnames, h⟩ := exists_of_bind_eq_ok h
    rw [run_imports_cachedAnswer, hs.cachedAnswer_imports, mapError_eq_ok_iff] at hnames
    split at h
    · rename_i hfirst
      rw [Dialogue.run_bind] at h
      obtain ⟨-, -, h⟩ := exists_of_bind_eq_ok h
      rw [Dialogue.run_bind, run_probe_cachedAnswer] at h
      obtain ⟨found, hfound, h⟩ := exists_of_bind_eq_ok h
      rw [mapError_eq_ok_iff] at hfound
      have hfound : s.disk.probe (s.library.item? (splitDotted chain)) = .ok found := by
        rw [hsplit]
        exact hfound
      rcases found with - | ⟨path⟩ | ⟨path, extension⟩
      · exact declares_of_methodItems hs hchain hsplit hnames hfirst hfound h hitem hlabel hdetail
      · -- The content of a package is offered without details.
        dsimp only at h
        rw [Dialogue.run_bind] at h
        obtain ⟨-, -, h⟩ := exists_of_bind_eq_ok h
        rw [Dialogue.run_bind] at h
        obtain ⟨children, -, h⟩ := exists_of_bind_eq_ok h
        obtain rfl := Except.ok.inj h
        obtain ⟨child, -, rfl⟩ := List.mem_map.mp hitem
        cases hdetail
      · exact declares_of_moduleFile hs hchain hsplit hnames hfirst hfound h hitem hlabel hdetail
    · obtain rfl := Except.ok.inj h
      cases hitem

/-! The requests. -/

theorem cachedResult_hover {d : Document} {p : CursorPosition} {expression detail : Text}
    (hexpression : Cursor.expressionAt? (d.lineAt p.line) p.column = some expression)
    (hsignature : (s.workspace.signature? expression false).run s.cachedAnswer = .ok (.ok (some detail)))
    (hne : detail ≠ []) : s.cachedResult .hover d p = .ok (some detail) := by
  have hrun : (s.workspace.hover d p).run s.cachedAnswer = .ok (.ok (some detail)) := by
    unfold Workspace.hover
    rw [hexpression]
    dsimp only
    rw [Dialogue.run_bind, hsignature]
    have hshown : Workspace.shown? (some detail) = some detail :=
      Option.filter_some_pos (by simpa using hne)
    exact congrArg (fun shown => Except.ok (Except.ok shown)) hshown
  unfold cachedResult Workspace.inquire
  rw [Dialogue.run_bind, hrun]
  rfl

/-- What a completion after a chain says comes from the ambient objects or from the library. -/
theorem run_items_of_complete {d : Document} {p : CursorPosition} {chain : Text} {items : List CompletionItem}
    (hchain : Workspace.completionChain? (d.beforeCursor p.line p.column) = some chain)
    (hcurrent : s.isCurrent d.uri d.version = true)
    (h : ((Act.request .complete d p).runIn s).2 = .ok items) :
    (∃ offered, s.schema.completionsFor? chain = some offered ∧ items = offered.map Workspace.ambientItem) ∨
    (s.schema.completionsFor? chain = none ∧
      (s.workspace.libraryItems chain).run s.cachedAnswer = .ok items) := by
  rw [request_eq_cachedOutcome, cachedOutcome_of_isCurrent hcurrent, mapError_eq_ok_iff, cachedResult] at h
  obtain ⟨answered, hanswered, h⟩ := exists_of_bind_eq_ok h
  rw [mapError_eq_ok_iff] at h
  subst h
  unfold Workspace.inquire at hanswered
  rw [Dialogue.run_bind] at hanswered
  obtain ⟨found, hfound, hsame⟩ := exists_of_bind_eq_ok hanswered
  obtain rfl := Except.ok.inj (Except.ok.inj hsame)
  unfold Workspace.complete at hfound
  rw [hchain] at hfound
  dsimp only at hfound
  have hschema : s.workspace.schema = s.schema := rfl
  rw [hschema] at hfound
  cases hoffered : s.schema.completionsFor? chain with
  | none =>
    rw [hoffered] at hfound
    exact .inr ⟨rfl, hfound⟩
  | some offered =>
    rw [hoffered] at hfound
    exact .inl ⟨offered, rfl, (Except.ok.inj hfound).symm⟩

theorem Declares.of_world (hconfiguration : s'.configuration = s.configuration) (hdisk : s'.disk = s.disk)
    {dotted : Text} {symbol : Symbol} (h : s.Declares dotted symbol) : s'.Declares dotted symbol := by
  have hlibrary : s'.library = s.library := by
    rw [library, library, hconfiguration]
  have hlayout : s'.layout = s.layout := by
    rw [layout, layout, hconfiguration]
  unfold Declares at h ⊢
  rw [hlibrary, hlayout, hdisk]
  exact h

theorem expressionAt?_of_isOn_append {line chain label : Text} {column : Int} (hchain : isChain chain = true)
    (hlabel : isIdentifier label = true) (h : Cursor.IsOn line column (chain ++ '.' :: label)) :
    Cursor.expressionAt? line column = some (chain ++ '.' :: label) := by
  refine Cursor.expressionAt?_of_isOn (fun c hc => ?_) ?_ h
  · rcases List.mem_append.mp hc with hc | hc
    · exact Cursor.isExpressionChar_of_isChain hchain c hc
    · rcases List.mem_cons.mp hc with rfl | hc
      · rfl
      · rw [Cursor.isExpressionChar, (isWord_of_isIdentifier hlabel).isIdentPart c hc, Bool.or_true]
  · obtain ⟨c, hc, hstart⟩ := exists_isIdentStart hlabel
    exact ⟨c, by simp [hc], hstart⟩

def offers (outcome : Except Interruption (List CompletionItem)) (label kind detail : Text) : Bool :=
  outcome.toOption.any fun items => items.any fun item =>
    item.label.isText label && item.kind.isText kind && item.detail == some detail

theorem exists_of_offers {outcome : Except Interruption (List CompletionItem)} {label kind detail : Text}
    (h : offers outcome label kind detail = true) :
    ∃ items, outcome = .ok items ∧ ∃ item ∈ items,
      item.label = .text label ∧ item.kind.isText kind = true ∧ item.detail = some detail := by
  cases outcome with
  | error i => cases h
  | ok items =>
    obtain ⟨item, hitem, hshown⟩ := List.any_eq_true.mp h
    rw [Bool.and_eq_true, Bool.and_eq_true] at hshown
    obtain ⟨⟨hlabel, hkind⟩, hdetail⟩ := hshown
    exact ⟨items, rfl, item, hitem, Value.isText_iff.mp hlabel, hkind, eq_of_beq hdetail⟩

/-- What a completion after a chain offers with a detail, a hover over the longer expression shows: symbols of
the library wherever the chain is no ambient one, and members of an ambient object. -/
theorem Truthful.hover_shows_completion (hs : s.Truthful) (hs' : s'.Truthful)
    (hconfiguration : s'.configuration = s.configuration) (hschema : s'.schema = s.schema)
    (hdisk : s'.disk = s.disk) (hkeyed : s.schema.WellKeyed) {d d' : Document} {p p' : CursorPosition}
    (hcurrent : s.isCurrent d.uri d.version = true) (hcurrent' : s'.isCurrent d'.uri d'.version = true)
    {chain label detail first : Text} {items : List CompletionItem} {item : CompletionItem}
    (hchain : isChain chain = true) (hfirst : (splitDotted chain).head? = some first)
    (hafter : Cursor.EndsAfter (d.beforeCursor p.line p.column) chain)
    (hcomplete : ((Act.request .complete d p).runIn s).2 = .ok items) (hitem : item ∈ items)
    (hlabel : item.label = .text label) (hdetail : item.detail = some detail)
    (hon : Cursor.IsOn (d'.lineAt p'.line) p'.column (chain ++ '.' :: label)) :
    (s.schema.isRoot first = false → s.schema.completionsFor? chain = none →
      ((Act.request .hover d' p').runIn s').2 = .ok (some detail)) ∧
    (s.schema.isRoot first = true → s.schema.completionsFor? chain ≠ none → isIdentifier label = true →
      item.kind.isText "method" ∨ item.kind.isText "property" → detail ≠ [] →
      ((Act.request .hover d' p').runIn s').2 = .ok (some detail)) := by
  have hitems := run_items_of_complete (Cursor.completionChain?_of_endsAfter hchain hafter) hcurrent hcomplete
  rw [request_eq_cachedOutcome, cachedOutcome_of_isCurrent hcurrent']
  obtain ⟨others, hsplit⟩ : ∃ others, splitDotted chain = first :: others := by
    cases hparts : splitDotted chain with
    | nil =>
      rw [hparts] at hfirst
      cases hfirst
    | cons part others =>
      rw [hparts] at hfirst
      exact ⟨others, congrArg (· :: others) (Option.some.inj hfirst)⟩
  refine ⟨fun hroot hnone => ?_, fun hroot hkey hlabelIdent hkind hne => ?_⟩
  · rcases hitems with ⟨offered, hoffered, -⟩ | ⟨-, hrun⟩
    · cases hnone.symm.trans hoffered
    · obtain ⟨symbol, hdeclares, hshown, rfl⟩ := declares_of_libraryItems hs hchain hrun hitem hlabel hdetail
      have hsignature := (hdeclares.of_world hconfiguration hdisk).run_signature? hs' fun part hpart => by
        rw [splitDotted_append hshown.isIdentifier, hsplit] at hpart
        rw [hschema, ← Option.some.inj hpart]
        exact hroot
      rw [cachedResult_hover (expressionAt?_of_isOn_append hchain hshown.isIdentifier hon) hsignature
        hshown.signature_ne_nil]
      rfl
  · rcases hitems with ⟨offered, hoffered, rfl⟩ | ⟨hnone, -⟩
    · obtain ⟨c, hc, rfl⟩ := List.mem_map.mp hitem
      have hclass : c.kind.isText "class" = false := by
        rcases hkind with hkind | hkind
        · have hmethod : c.kind = .text "method" := Value.isText_iff.mp hkind
          rw [hmethod]
          decide
        · have hproperty : c.kind = .text "property" := Value.isText_iff.mp hkind
          rw [hproperty]
          decide
      have hmember := Schema.signature?_of_completion hkeyed hchain hlabelIdent hoffered hc hlabel hclass
        hdetail hne
      have hsignature : (s'.workspace.signature? (chain ++ '.' :: label) false).run s'.cachedAnswer =
          .ok (.ok (some detail)) := by
        unfold Workspace.signature?
        rw [splitDotted_append hlabelIdent, hsplit, List.cons_append]
        dsimp only
        have hworkspace : s'.workspace.schema = s.schema := hschema
        rw [hworkspace, hroot, if_pos rfl, hmember]
        rfl
      rw [cachedResult_hover (expressionAt?_of_isOn_append hchain hlabelIdent hon) hsignature hne]
      rfl
    · exact absurd hnone hkey

def classAndAmbient : Session where
  configuration := { workspace := "/w", file := "/w/.apy_intel.yml" }
  schema := {
    roots := ["env", "exceptions"]
    classes := [
      ⟨"Env", "env.vars", [⟨"get", "method", "def get(self, key: str) -> str: ..."⟩], [], []⟩,
      ⟨"exceptions", "exceptions", [⟨"last", "property", "last: str"⟩], ["Failed"], []⟩] }
  disk := {
    top := .folder [("w", .folder [("src", .folder [("libs", .folder
      [("m.py", .file (Text.encodeUtf8 "class C:\n    def f(self, a):\n        pass\n"))])])])] }
  watcher := some { root := "/w/src/libs", listeners := [.session] }

theorem offers_classAndAmbient :
    offers ((Act.request .complete ⟨"/w/d.py", "x = m.C.", 0⟩ ⟨0, 8⟩).runIn classAndAmbient).2 "f" "method"
      "def C.f(self, a)" = true ∧
    offers ((Act.request .complete ⟨"/w/d.py", "env.vars.", 0⟩ ⟨0, 9⟩).runIn classAndAmbient).2 "get" "method"
      "get(key: str) -> str" = true := by
  decide +kernel

theorem Truthful.hover_shows_completion_members :
    let s := ((Act.request .complete ⟨"/w/d.py", "x = m.C.", 0⟩ ⟨0, 8⟩).runIn classAndAmbient).1
    s.outlines.entries ≠ [] ∧
    ((Act.request .hover ⟨"/w/d.py", "print(m.C.f)", 1⟩ ⟨0, 8⟩).runIn s).2 = .ok (some "def C.f(self, a)") ∧
    ((Act.request .hover ⟨"/w/d.py", "env.vars.get", 1⟩ ⟨0, 12⟩).runIn s).2 =
      .ok (some "get(key: str) -> str") := by
  refine ⟨by decide +kernel, ?_⟩
  have hwatched : classAndAmbient.IsWatched :=
    ⟨⟨_, rfl, List.mem_singleton_self _, rfl⟩, by decide +kernel, by decide, by decide⟩
  have hfresh : classAndAmbient.IsFresh := ⟨rfl, rfl, by decide⟩
  obtain ⟨s, hbare, hcoherent, hrun⟩ :=
    hfresh.coherent.request hwatched .complete ⟨"/w/d.py", "x = m.C.", 0⟩ ⟨0, 8⟩
  rw [hrun]
  have hold : classAndAmbient.Truthful := hfresh.coherent.truthful hwatched.isPlain_current
  have hnew : s.Truthful := hcoherent.truthful (hwatched.of_bare hbare).isPlain_current
  have hconfiguration := eq_of_bare_eq hbare (·.configuration) fun _ => rfl
  have hschema := eq_of_bare_eq hbare (·.schema) fun _ => rfl
  have hdisk := eq_of_bare_eq hbare (·.disk) fun _ => rfl
  have hcurrent : s.isCurrent "/w/d.py" 1 = true := eq_of_bare_eq hbare (·.isCurrent "/w/d.py" 1) fun _ => rfl
  have hkeyed : classAndAmbient.schema.WellKeyed := ⟨by decide +kernel, by decide +kernel, by decide +kernel⟩
  obtain ⟨hmethod, hmember⟩ := offers_classAndAmbient
  constructor
  · obtain ⟨items, hcomplete, item, hitem, hlabel, -, hdetail⟩ := exists_of_offers hmethod
    have hchain : Text.isChain "m.C" = true := by decide
    refine (Truthful.hover_shows_completion hold hnew hconfiguration hschema hdisk hkeyed rfl hcurrent
      hchain rfl ⟨"x = ", rfl, by rintro c ⟨⟩; rfl⟩ hcomplete hitem hlabel hdetail
      ⟨"print(", ")", rfl, by rintro c ⟨⟩; rfl, by rintro c ⟨⟩; rfl, by decide, by decide⟩).1 ?_ ?_
    · decide +kernel
    · exact Option.isNone_iff_eq_none.mp (by decide +kernel)
  · obtain ⟨items, hcomplete, item, hitem, hlabel, hkind, hdetail⟩ := exists_of_offers hmember
    have hchain : Text.isChain "env.vars" = true := by decide
    refine (Truthful.hover_shows_completion hold hnew hconfiguration hschema hdisk hkeyed rfl hcurrent
      hchain rfl ⟨"", rfl, nofun⟩ hcomplete hitem hlabel hdetail
      ⟨"", "", rfl, nofun, nofun, by decide, by decide⟩).2 ?_ ?_ ?_ (.inl hkind) ?_
    · decide +kernel
    · exact Option.isSome_iff_ne_none.mp (by decide +kernel)
    · decide
    · decide

end Session
end EditorInsight
