import EditorInsight.Proofs.Library.FileSystem

/-!
# Resolution as a descent

A dotted name is resolved by trying its initial parts, from all of them down to the first. In a file system
this is the same as walking down from the root: nothing stands below a name that is not a folder, so the
first such name decides.
-/

namespace EditorInsight

namespace FileSystem

variable (fs : FileSystem) (extensions : List Text)

/-- The walk that goes down as long as the next part is a folder, and otherwise takes the first extension
with which the part is a file. -/
def descend (folder : Text) : List Text → Option Target
  | [] => none
  | part :: rest =>
    if fs.isFolder (Path.append folder part) then descend (Path.append folder part) rest
    else ((extensions.map fun e => Path.append folder (part ++ e)).find? fs.isFile).map
      fun path => ⟨path, .ofParts rest⟩

def resolve? (folder name : Text) : Option LibraryItem :=
  if fs.isFolder (Path.append folder name) then some (.package (Path.append folder name))
  else (extensions.find? fun e => fs.isFile (Path.append folder (name ++ e))).map
    fun e => .moduleFile (Path.append folder (name ++ e)) e

theorem resolve?_eq_none {folder name : Text} (hname : fs.isPresent (Path.append folder name) = false)
    (hfiles : ∀ e ∈ extensions, fs.isPresent (Path.append folder (name ++ e)) = false) :
    fs.resolve? extensions folder name = none := by
  have hpackage : fs.isFolder (Path.append folder name) = false := by
    by_contra hfolder
    have hpresent := fs.isPresent_of_isFolder _ (Bool.not_eq_false _ ▸ hfolder)
    rw [hname] at hpresent
    cases hpresent
  have hnone : (extensions.find? fun e => fs.isFile (Path.append folder (name ++ e))) = none := by
    rw [List.find?_eq_none]
    intro e he
    simp [isFile, hfiles e he]
  rw [resolve?, hpackage, hnone]
  rfl

theorem resolve?_of_not_isFolder {folder name : Text} (hne : folder ≠ [])
    (hslash : ∀ e ∈ extensions, '/' ∉ e) (hname : Path.IsPlain name) (h : fs.isFolder folder = false) :
    fs.resolve? extensions folder name = none := by
  have habsent {file : Text} (hfile : Path.IsPlain file) : fs.isPresent (Path.append folder file) = false := by
    by_contra hpresent
    have hfolder := fs.isFolder_of_isPresent folder file hne hfile (Bool.not_eq_false _ ▸ hpresent)
    rw [h] at hfolder
    cases hfolder
  apply fs.resolve?_eq_none extensions (habsent hname)
  intro e he
  exact habsent ⟨by simp [hname.ne_nil], by simp [hname.slash_not_mem, hslash e he]⟩

end FileSystem

namespace Library

variable {fs : FileSystem}

theorem run_moduleFile? (folder name : Text) (extensions : List Text) :
    (moduleFile? folder name extensions).run fs.answer =
      .ok ((extensions.find? fun e => fs.isFile (Path.append folder (name ++ e))).map
        fun e => .moduleFile (Path.append folder (name ++ e)) e) := by
  induction extensions with
  | nil => rfl
  | cons e extensions ih =>
    rw [moduleFile?, Dialogue.run_bind, fs.run_present, List.find?_cons, FileSystem.isFile]
    cases hpresent : fs.isPresent (Path.append folder (name ++ e)) with
    | false => exact ih
    | true =>
      have hfolder := fs.run_isFolder (fs.hasNull_of_isPresent _ hpresent)
      change (Probe.isFolder _ >>= _).run fs.answer = _
      rw [Dialogue.run_bind, hfolder]
      cases fs.isFolder (Path.append folder (name ++ e)) with
      | false => rfl
      | true => exact ih

variable {lib : Library}

theorem run_item?_nil (hroot : fs.isFolder lib.root = true) :
    (lib.item? []).run fs.answer = .ok (some (.package lib.root)) := by
  have hnull := fs.hasNull_of_isPresent _ (fs.isPresent_of_isFolder _ hroot)
  rw [item?, Dialogue.run_bind, fs.run_isFolder hnull, hroot]
  rfl

theorem run_item?_of_path (hroot : fs.isFolder lib.root = true) (parts : List Text) (name : Text)
    (hpath : Path.hasNull (Path.append (Path.join lib.root parts) name) = false) :
    (lib.item? (parts ++ [name])).run fs.answer =
      .ok (fs.resolve? lib.extensions (Path.join lib.root parts) name) := by
  have hnull := fs.hasNull_of_isPresent _ (fs.isPresent_of_isFolder _ hroot)
  rw [item?, Dialogue.run_bind, fs.run_isFolder hnull, hroot, List.getLast?_concat,
    List.dropLast_concat, FileSystem.resolve?]
  change (Probe.isFolder _ >>= _).run fs.answer = _
  rw [Path.join_concat, Dialogue.run_bind, fs.run_isFolder hpath]
  cases fs.isFolder (Path.append (Path.join lib.root parts) name) with
  | true => rfl
  | false => exact run_moduleFile? _ _ _

theorem run_item?_concat (hroot : fs.isFolder lib.root = true) (parts : List Text) (name : Text)
    (hparts : ∀ part ∈ parts, '\x00' ∉ part) (hname : '\x00' ∉ name) :
    (lib.item? (parts ++ [name])).run fs.answer =
      .ok (fs.resolve? lib.extensions (Path.join lib.root parts) name) := by
  have hnull := fs.hasNull_of_isPresent _ (fs.isPresent_of_isFolder _ hroot)
  exact run_item?_of_path hroot parts name (Path.hasNull_append (Path.hasNull_join hnull hparts) hname)

/-- The library that a package is. -/
def within (lib : Library) (part : Text) : Library := { lib with root := Path.append lib.root part }

theorem run_item?_cons (hroot : fs.isFolder lib.root = true) {part : Text} {parts : List Text}
    (hpart : '\x00' ∉ part) (hparts : ∀ part ∈ parts, '\x00' ∉ part)
    (hfolder : fs.isFolder (Path.append lib.root part) = true) :
    (lib.item? (part :: parts)).run fs.answer = ((lib.within part).item? parts).run fs.answer := by
  have hwithin : fs.isFolder (lib.within part).root = true := hfolder
  rcases List.eq_nil_or_concat parts with rfl | ⟨init, name, rfl⟩
  · have hsingle := run_item?_concat hroot [] part (by simp) hpart
    rw [List.nil_append] at hsingle
    rw [run_item?_nil hwithin, hsingle, FileSystem.resolve?]
    exact congrArg Except.ok (if_pos hfolder)
  · have hinit : ∀ part ∈ init, '\x00' ∉ part := fun p hp => hparts p (by simp [hp])
    have hname : '\x00' ∉ name := hparts name (by simp)
    rw [List.concat_eq_append, ← List.cons_append,
      run_item?_concat hroot _ _ (List.forall_mem_cons.mpr ⟨hpart, hinit⟩) hname,
      run_item?_concat hwithin _ _ hinit hname]
    rfl

/-- Below a folder, the search goes on as in the library that the folder is. -/
theorem run_targetFrom?_of_isFolder (hroot : fs.isFolder lib.root = true) {part : Text} {rest : List Text}
    (hpart : '\x00' ∉ part) (hrest : ∀ p ∈ rest, '\x00' ∉ p)
    (hfolder : fs.isFolder (Path.append lib.root part) = true) (k : Nat) :
    (lib.targetFrom? (part :: rest) (k + 1)).run fs.answer =
      ((lib.within part).targetFrom? rest k).run fs.answer := by
  have hitem (n : Nat) : (lib.item? ((part :: rest).take (n + 1))).run fs.answer =
      ((lib.within part).item? (rest.take n)).run fs.answer :=
    run_item?_cons hroot hpart (fun p hp => hrest p (List.mem_of_mem_take hp)) hfolder
  induction k with
  | zero =>
    have hpackage := (hitem 0).trans (run_item?_nil hfolder)
    rw [targetFrom?.eq_2, Dialogue.run_bind, hpackage]
    rfl
  | succ k ih =>
    rw [targetFrom?.eq_2, Dialogue.run_bind, hitem, targetFrom?.eq_2 (lib.within part),
      Dialogue.run_bind]
    congr 1
    funext item
    rcases item with - | ⟨path⟩ | ⟨path, e⟩
    · exact ih
    · rfl
    · rfl

theorem run_item?_of_not_isFolder (hroot : fs.isFolder lib.root = true)
    (hslash : ∀ e ∈ lib.extensions, '/' ∉ e) {part : Text} {parts : List Text} (hbelow : parts ≠ [])
    (hplain : ∀ p ∈ part :: parts, Path.IsPlain p) (hnull : ∀ p ∈ part :: parts, '\x00' ∉ p)
    (hfolder : fs.isFolder (Path.append lib.root part) = false) :
    (lib.item? (part :: parts)).run fs.answer = .ok none := by
  obtain ⟨init, name, rfl⟩ := (List.eq_nil_or_concat parts).resolve_left hbelow
  rw [List.concat_eq_append, ← List.cons_append] at hplain hnull ⊢
  obtain ⟨hpart, hinit⟩ := List.forall_mem_cons.mp (List.forall_mem_append.mp hplain).1
  have hname := hplain name (by simp)
  have hinitNull := (List.forall_mem_append.mp hnull).1
  have hnameNull := hnull name (by simp)
  have hfirst := Path.append_ne_nil hpart.ne_nil lib.root
  have habove : fs.isFolder (Path.join lib.root (part :: init)) = false := by
    by_contra hnot
    have hback := fs.isFolder_of_isFolder_join hfirst hinit (Bool.not_eq_false _ ▸ hnot)
    rw [hfolder] at hback
    cases hback
  have hpath : Path.join lib.root (part :: init) ≠ [] := (Path.join_ne_nil_of_base hfirst hinit :)
  rw [run_item?_concat hroot _ _ hinitNull hnameNull,
    fs.resolve?_of_not_isFolder lib.extensions hpath hslash hname habove]

/-- So the search comes back to that part. -/
theorem run_targetFrom?_of_not_isFolder (hroot : fs.isFolder lib.root = true)
    (hslash : ∀ e ∈ lib.extensions, '/' ∉ e) {part : Text} {rest : List Text}
    (hplain : ∀ p ∈ part :: rest, Path.IsPlain p) (hnull : ∀ p ∈ part :: rest, '\x00' ∉ p)
    (hfolder : fs.isFolder (Path.append lib.root part) = false) {k : Nat} (hk : k ≤ rest.length) :
    (lib.targetFrom? (part :: rest) (k + 1)).run fs.answer =
      .ok (((lib.extensions.map fun e => Path.append lib.root (part ++ e)).find? fs.isFile).map
        fun path => ⟨path, .ofParts rest⟩) := by
  induction k with
  | zero =>
    have hitem : (lib.item? ((part :: rest).take 1)).run fs.answer =
        .ok ((lib.extensions.find? fun e => fs.isFile (Path.append lib.root (part ++ e))).map
          fun e => .moduleFile (Path.append lib.root (part ++ e)) e) := by
      have hsingle := run_item?_concat hroot [] part (by simp) (hnull part List.mem_cons_self)
      rw [FileSystem.resolve?] at hsingle
      exact hsingle.trans (congrArg Except.ok (if_neg (by simpa [Path.join] using hfolder)))
    rw [targetFrom?.eq_2, Dialogue.run_bind, hitem, List.find?_map, Option.map_map]
    unfold Function.comp
    cases lib.extensions.find? fun e => fs.isFile (Path.append lib.root (part ++ e)) <;> rfl
  | succ k ih =>
    have htake : rest.take (k + 1) ≠ [] := by
      rw [Ne, List.take_eq_nil_iff]
      rintro (hzero | rfl)
      · cases hzero
      · simp at hk
    have hmem {p : Text} (hp : p ∈ part :: rest.take (k + 1)) : p ∈ part :: rest :=
      List.mem_of_mem_take (i := k + 2) hp
    have hnone := run_item?_of_not_isFolder hroot hslash htake (fun p hp => hplain p (hmem hp))
      (fun p hp => hnull p (hmem hp)) hfolder
    rw [targetFrom?.eq_2, Dialogue.run_bind, List.take_succ_cons, hnone]
    exact ih (by omega)

theorem run_targetFrom?_eq_descend (hroot : fs.isFolder lib.root = true)
    (hslash : ∀ e ∈ lib.extensions, '/' ∉ e) {parts : List Text}
    (hplain : ∀ p ∈ parts, Path.IsPlain p) (hnull : ∀ p ∈ parts, '\x00' ∉ p) :
    (lib.targetFrom? parts parts.length).run fs.answer =
      .ok (fs.descend lib.extensions lib.root parts) := by
  -- The induction goes down the tree: a folder is the root of the next library.
  induction parts generalizing lib with
  | nil => rfl
  | cons part rest ih =>
    rw [FileSystem.descend, List.length_cons]
    cases hfolder : fs.isFolder (Path.append lib.root part) with
    | true =>
      obtain ⟨-, hrestPlain⟩ := List.forall_mem_cons.mp hplain
      obtain ⟨hpartNull, hrestNull⟩ := List.forall_mem_cons.mp hnull
      have hwithin : fs.isFolder (lib.within part).root = true := hfolder
      rw [run_targetFrom?_of_isFolder hroot hpartNull hrestNull hfolder,
        ih hwithin hslash hrestPlain hrestNull]
      rfl
    | false =>
      rw [run_targetFrom?_of_not_isFolder hroot hslash hplain hnull hfolder (Nat.le_refl _)]
      rfl

/-- The target of a dotted name is where the descent from the root ends. -/
theorem target?_eq_descend (fs : FileSystem) (lib : Library) (hroot : fs.isFolder lib.root = true)
    (hslash : ∀ e ∈ lib.extensions, '/' ∉ e) (dotted : Text)
    (hparts : ∀ p ∈ Text.splitDotted dotted, '/' ∉ p ∧ '\x00' ∉ p) :
    (lib.target? dotted).run fs.answer =
      .ok (fs.descend lib.extensions lib.root (Text.splitDotted dotted)) := by
  refine run_targetFrom?_eq_descend hroot hslash (fun p hp => ?_) fun p hp => (hparts p hp).2
  have hne : p ≠ [] := by simpa using (List.mem_filter.mp hp).2
  exact ⟨hne, (hparts p hp).1⟩

theorem target?_eq_descend_folders :
    let d : Disk := { top := .folder [("libs", .folder [
      ("pkg", .folder [("tools.py", .folder []), ("tools.apy", .file [])]), ("pkg.py", .file [])])] }
    let lib : Library := { root := "/libs" }
    let dotted : Text := "pkg..tools.Client.send.more"
    d.fileSystem.isFolder lib.root = true ∧ (∀ e ∈ lib.extensions, '/' ∉ e) ∧
    (∀ p ∈ Text.splitDotted dotted, '/' ∉ p ∧ '\x00' ∉ p) ∧
    (lib.target? dotted).run d.fileSystem.answer =
      .ok (d.fileSystem.descend lib.extensions lib.root (Text.splitDotted dotted)) ∧
    d.fileSystem.descend lib.extensions lib.root (Text.splitDotted dotted) =
      some ⟨"/libs/pkg/tools.apy", .method "Client" "send"⟩ := by
  intro d lib dotted
  have hroot : d.fileSystem.isFolder lib.root = true := by decide +kernel
  have hslash : ∀ e ∈ lib.extensions, '/' ∉ e := by decide
  have hparts : ∀ p ∈ Text.splitDotted dotted, '/' ∉ p ∧ '\x00' ∉ p := by decide +kernel
  exact ⟨hroot, hslash, hparts, target?_eq_descend d.fileSystem lib hroot hslash dotted hparts,
    by decide +kernel⟩

end Library
end EditorInsight
