import EditorInsight.Proofs.Library.ModulePath

/-!
# File systems

What a library asks is answered by a file system: anything that tells what is present and what is a folder,
and in which everything stands in a folder. A disk is one.
-/

namespace EditorInsight

/-- Answers to questions about files, such that something is present only in a folder. -/
structure FileSystem where
  answer : (q : FileQuestion) → Except Path.Fault q.Answer
  isPresent : Text → Bool
  isFolder : Text → Bool
  answer_present : ∀ p, answer (.present p) = .ok (isPresent p)
  isSome_answer_list : ∀ p, Path.hasNull p = false →
    (answer (.list p)).map Option.isSome = .ok (isFolder p)
  isPresent_of_isFolder : ∀ p, isFolder p = true → isPresent p = true
  hasNull_of_isPresent : ∀ p, isPresent p = true → Path.hasNull p = false
  isFolder_of_isPresent : ∀ base name, base ≠ [] → Path.IsPlain name →
    isPresent (Path.append base name) = true → isFolder base = true

namespace Path

theorem isAbsolute_of_not_mem {name : Text} (h : '/' ∉ name) : isAbsolute name = false := by
  cases name with
  | nil => rfl
  | cons c name =>
    have hc : c ≠ '/' := fun hc => h (hc ▸ List.mem_cons_self)
    simpa [isAbsolute] using hc

theorem append_ne_nil {name : Text} (hne : name ≠ []) (base : Text) : append base name ≠ [] := by
  unfold append
  split
  · exact hne
  · split <;> simp [hne]

theorem exists_pieces_append {base part : Text} (hne : base ≠ []) (h : isAbsolute part = false) :
    ∃ ps, pieces (append base part) = ps ++ pieces part ∧ (pieces base = ps ∨ pieces base = ps ++ [[]]) := by
  have hsplit (x y : Text) : pieces (x ++ '/' :: y) = pieces x ++ pieces y :=
    Text.splitWhere_append (by simp) x y
  rw [append, h, if_neg Bool.false_ne_true]
  split
  · rename_i hend
    have hlast : base.getLast? = some '/' := by simpa [hne] using hend
    obtain ⟨b, rfl⟩ := List.getLast?_eq_some_iff.mp hlast
    rw [List.append_assoc, List.singleton_append, hsplit b part, hsplit b []]
    exact ⟨pieces b, rfl, Or.inr rfl⟩
  · exact ⟨pieces base, hsplit base part, Or.inl rfl⟩

theorem isPrefix_append {part : Text} (h : isAbsolute part = false) (base : Text) :
    base <+: append base part := by
  rw [append, h, if_neg Bool.false_ne_true]
  split <;> exact List.prefix_append _ _

theorem isAbsolute_append {base part : Text} (hne : base ≠ []) (h : isAbsolute part = false) :
    isAbsolute (append base part) = isAbsolute base := by
  obtain ⟨r, hr⟩ := isPrefix_append h base
  cases base with
  | nil => exact absurd rfl hne
  | cons c base => rw [← hr, List.cons_append, isAbsolute, isAbsolute, List.head?_cons, List.head?_cons]

theorem hasNull_of_append {base part : Text} (h : isAbsolute part = false)
    (hnull : hasNull (append base part) = false) : hasNull base = false := by
  obtain ⟨r, hr⟩ := isPrefix_append h base
  rw [← hr, hasNull, List.any_append, Bool.or_eq_false_iff] at hnull
  exact hnull.1

theorem join_concat (base : Text) (parts : List Text) (name : Text) :
    join base (parts ++ [name]) = append (join base parts) name :=
  List.foldl_append

theorem join_ne_nil_of_base {base : Text} {parts : List Text} (hne : base ≠ [])
    (hparts : ∀ part ∈ parts, IsPlain part) : join base parts ≠ [] := by
  induction parts generalizing base with
  | nil => exact hne
  | cons part parts ih =>
    obtain ⟨hpart, hparts⟩ := List.forall_mem_cons.mp hparts
    exact ih (append_ne_nil hpart.ne_nil base) hparts

theorem hasNull_append {base name : Text} (hbase : hasNull base = false) (hname : '\x00' ∉ name) :
    hasNull (append base name) = false := by
  have hnull : hasNull name = false := by
    simp only [hasNull, List.any_eq_false, beq_iff_eq]
    rintro c hc rfl
    exact hname hc
  unfold append
  split
  · exact hnull
  · split
    · simpa [hasNull] using And.intro hbase hnull
    · simpa [hasNull] using And.intro hbase hnull

theorem hasNull_join {base : Text} {parts : List Text} (hbase : hasNull base = false)
    (hparts : ∀ part ∈ parts, '\x00' ∉ part) : hasNull (join base parts) = false := by
  induction parts generalizing base with
  | nil => exact hbase
  | cons part parts ih =>
    obtain ⟨hpart, hparts⟩ := List.forall_mem_cons.mp hparts
    exact ih (hasNull_append hbase hpart) hparts

end Path

namespace FileSystem

variable (fs : FileSystem)

def isFile (p : Text) : Bool := fs.isPresent p && !fs.isFolder p

theorem isFile_iff {fs : FileSystem} {p : Text} :
    fs.isFile p = true ↔ fs.isPresent p = true ∧ fs.isFolder p = false := by
  rw [isFile, Bool.and_eq_true, Bool.not_eq_true']

theorem run_present (p : Text) : (Probe.present p).run fs.answer = .ok (fs.isPresent p) := by
  rw [Probe.present, Dialogue.run_question]
  exact fs.answer_present p

theorem run_isFolder {p : Text} (h : Path.hasNull p = false) :
    (Probe.isFolder p).run fs.answer = .ok (fs.isFolder p) := by
  have hlist := fs.isSome_answer_list p h
  rw [Probe.isFolder, Dialogue.run_bind, Probe.list, Dialogue.run_question]
  exact hlist

theorem isFolder_of_isFolder_join {folder : Text} {parts : List Text} (hne : folder ≠ [])
    (hparts : ∀ part ∈ parts, Path.IsPlain part) (h : fs.isFolder (Path.join folder parts) = true) :
    fs.isFolder folder = true := by
  induction parts generalizing folder with
  | nil => exact h
  | cons part parts ih =>
    obtain ⟨hpart, hparts⟩ := List.forall_mem_cons.mp hparts
    have hfolder := ih (Path.append_ne_nil hpart.ne_nil folder) hparts h
    exact fs.isFolder_of_isPresent folder part hne hpart (fs.isPresent_of_isFolder _ hfolder)

end FileSystem

/-! Disks. -/

namespace FileNode

theorem walk_append_found_iff {top n : FileNode} {first rest here place : List Text} :
    top.walk here (first ++ rest) = .found place n ↔
      ∃ between m, top.walk here first = .found between m ∧ top.walk between rest = .found place n := by
  induction first generalizing here with
  | nil =>
    constructor
    · intro h
      obtain ⟨m, hm⟩ : ∃ m, top.at? here = some m := by
        cases rest with
        | nil => exact ⟨n, (walk_nil_found_iff.mp h).2⟩
        | cons piece rest =>
          obtain ⟨⟨cs, hcs⟩, -⟩ := walk_cons_found_iff.mp h
          exact ⟨.folder cs, hcs⟩
      exact ⟨here, m, walk_nil_found_iff.mpr ⟨rfl, hm⟩, h⟩
    · rintro ⟨between, m, hfirst, hrest⟩
      obtain ⟨rfl, -⟩ := walk_nil_found_iff.mp hfirst
      exact hrest
  | cons piece first ih =>
    simp only [List.cons_append, walk_cons_found_iff, ih]
    constructor
    · rintro ⟨hfolder, ⟨hleads, between, m, hfirst, hrest⟩ | ⟨hleads, hshort, between, m, hfirst, hrest⟩⟩
      · exact ⟨between, m, ⟨hfolder, Or.inl ⟨hleads, hfirst⟩⟩, hrest⟩
      · exact ⟨between, m, ⟨hfolder, Or.inr ⟨hleads, hshort, hfirst⟩⟩, hrest⟩
    · rintro ⟨between, m, ⟨hfolder, ⟨hleads, hfirst⟩ | ⟨hleads, hshort, hfirst⟩⟩, hrest⟩
      · exact ⟨hfolder, Or.inl ⟨hleads, between, m, hfirst, hrest⟩⟩
      · exact ⟨hfolder, Or.inr ⟨hleads, hshort, between, m, hfirst, hrest⟩⟩

theorem exists_walk_of_walk_append {top n : FileNode} {first rest here place : List Text} (hrest : rest ≠ [])
    (h : top.walk here (first ++ rest) = .found place n) :
    ∃ between cs, top.walk here first = .found between (.folder cs) := by
  obtain ⟨between, m, hwalk, hlast⟩ := walk_append_found_iff.mp h
  cases rest with
  | nil => exact absurd rfl hrest
  | cons piece rest =>
    obtain ⟨⟨cs, hcs⟩, -⟩ := walk_cons_found_iff.mp hlast
    obtain rfl : m = .folder cs := Option.some.inj ((walk_found hwalk).2.symm.trans hcs)
    exact ⟨between, cs, hwalk⟩

theorem walk_concat_nil {top : FileNode} {cs : List (Text × FileNode)} {pieces here place : List Text}
    (h : top.walk here pieces = .found place (.folder cs)) :
    top.walk here (pieces ++ [[]]) = .found place (.folder cs) := by
  have hat := (walk_found h).2
  have hstay : top.walk place [[]] = .found place (.folder cs) :=
    walk_cons_found_iff.mpr ⟨⟨cs, hat⟩, Or.inl ⟨rfl, walk_nil_found_iff.mpr ⟨rfl, hat⟩⟩⟩
  exact walk_append_found_iff.mpr ⟨place, _, h, hstay⟩

end FileNode

namespace Disk

variable (d : Disk)

theorem isFolder_iff {d : Disk} {p : Text} : d.isFolder p = true ↔
    Path.hasNull p = false ∧ ∃ place cs, d.arrive p = .found place (.folder cs) := by
  unfold isFolder
  cases d.arrive p with
  | found place n => cases n <;> simp [FileNode.isFolder]
  | absent => simp
  | belowFile => simp
  | tooLong => simp

theorem isSome_reply_list (p : Text) (h : Path.hasNull p = false) :
    ((d.reply (.list p)).map Prod.fst).map Option.isSome = .ok (d.isFolder p) := by
  rw [reply, list, isFolder, h]
  cases d.arrive p with
  | found place n => cases n <;> rfl
  | absent => rfl
  | belowFile => rfl
  | tooLong => rfl

theorem isPresent_of_isFolder (p : Text) (h : d.isFolder p = true) : d.isPresent p = true := by
  obtain ⟨hnull, place, cs, harrive⟩ := isFolder_iff.mp h
  exact isPresent_iff.mpr ⟨hnull, place, _, harrive⟩

theorem hasNull_of_isPresent (p : Text) (h : d.isPresent p = true) : Path.hasNull p = false :=
  (isPresent_iff.mp h).1

theorem isFolder_of_isPresent_append {base part : Text} (hne : base ≠ [])
    (hrelative : Path.isAbsolute part = false) (h : d.isPresent (Path.append base part) = true) :
    d.isFolder base = true := by
  obtain ⟨hnull, place, n, harrive⟩ := isPresent_iff.mp h
  obtain ⟨-, hlength, hwalk⟩ := arrive_found harrive
  have hlengthBase := length_encodeUtf8_le (Path.isPrefix_append hrelative base).sublist
  obtain ⟨ps, hpieces, hbase⟩ := Path.exists_pieces_append hne hrelative
  rw [Path.isAbsolute_append hne hrelative, hpieces] at hwalk
  obtain ⟨place', cs, hfolder⟩ := FileNode.exists_walk_of_walk_append (Text.splitWhere_ne_nil _ _) hwalk
  refine isFolder_iff.mpr ⟨Path.hasNull_of_append hrelative hnull, place', cs, ?_⟩
  rw [arrive, if_neg hne, if_neg (by omega)]
  rcases hbase with hbase | hbase
  · rw [hbase]
    exact hfolder
  · rw [hbase]
    exact FileNode.walk_concat_nil hfolder

def fileSystem : FileSystem where
  answer q := (d.reply q).map Prod.fst
  isPresent := d.isPresent
  isFolder := d.isFolder
  answer_present _ := rfl
  isSome_answer_list := d.isSome_reply_list
  isPresent_of_isFolder := d.isPresent_of_isFolder
  hasNull_of_isPresent := d.hasNull_of_isPresent
  isFolder_of_isPresent _ _ hne hplain :=
    d.isFolder_of_isPresent_append hne (Path.isAbsolute_of_not_mem hplain.slash_not_mem)

end Disk
end EditorInsight
