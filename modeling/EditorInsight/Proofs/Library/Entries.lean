import EditorInsight.Data.OrderedMap
import EditorInsight.Proofs.Library.Descent
import EditorInsight.Proofs.Source.CursorWords

/-!
# What a folder lists

A folder lists what stands in it: the names that are present below its path, each with its kind. On a disk
this is so wherever the names are proper, distinct and not too long.
-/

namespace EditorInsight

open Text

namespace FileSystem

/-- The folder is answered with these entries, and they are what stands in it. -/
structure Lists (fs : FileSystem) (folder : Text) (entries : List DirEntry) : Prop where
  answer_eq : fs.answer (.list folder) = .ok (some entries)
  mem_iff : ∀ entry, entry ∈ entries ↔ Path.IsProper entry.name ∧
    fs.isPresent (Path.append folder entry.name) = true ∧
    fs.isFolder (Path.append folder entry.name) = entry.isFolder

variable {fs : FileSystem} {folder : Text} {entries : List DirEntry}

theorem Lists.isFolder_iff (h : fs.Lists folder entries) {name : Text} (hname : Path.IsProper name) :
    fs.isFolder (Path.append folder name) = true ↔ ⟨name, true⟩ ∈ entries := by
  rw [h.mem_iff]
  constructor
  · intro hfolder
    exact ⟨hname, fs.isPresent_of_isFolder _ hfolder, hfolder⟩
  · intro hentry
    exact hentry.2.2

theorem Lists.isFile_iff (h : fs.Lists folder entries) {name : Text} (hname : Path.IsProper name) :
    fs.isFile (Path.append folder name) = true ↔ ⟨name, false⟩ ∈ entries := by
  rw [h.mem_iff, FileSystem.isFile_iff]
  simp [hname]

end FileSystem

/-! Disks. -/

namespace FileNode

theorem at?_concat (n : FileNode) (place : List Text) (name : Text) :
    n.at? (place ++ [name]) = (n.at? place).bind (·.child? name) := by
  induction place generalizing n with
  | nil => simp [at?]
  | cons step place ih =>
    rw [List.cons_append, at?, at?]
    cases n.child? step with
    | none => rfl
    | some c => exact ih c

theorem child?_of_mem {cs : List (Text × FileNode)} (hdistinct : (cs.map Prod.fst).Nodup)
    {c : Text × FileNode} (h : c ∈ cs) : (folder cs).child? c.1 = some c.2 :=
  congrArg (Option.map Prod.snd) (OrderedMap.find?_of_mem hdistinct h)

theorem walk_of_walk_concat_nil {top n : FileNode} {pieces here place : List Text}
    (h : top.walk here (pieces ++ [[]]) = .found place n) : top.walk here pieces = .found place n := by
  obtain ⟨between, m, hfirst, hlast⟩ := walk_append_found_iff.mp h
  obtain ⟨-, ⟨-, hstay⟩ | ⟨hleads, -⟩⟩ := walk_cons_found_iff.mp hlast
  · obtain ⟨rfl, hat⟩ := walk_nil_found_iff.mp hstay
    obtain rfl : m = n := Option.some.inj ((walk_found hfirst).2.symm.trans hat)
    exact hfirst
  · cases hleads

theorem walk_singleton_found_iff {top n : FileNode} {cs : List (Text × FileNode)} {name : Text}
    {here place : List Text} (hhere : top.at? here = some (.folder cs)) (hname : Path.IsProper name) :
    top.walk here [name] = .found place n ↔ (encodeUtf8 name).length ≤ maxNameBytes ∧
      here ++ [name] = place ∧ (folder cs).child? name = some n := by
  have hleads : Path.leads name = true := by simp [Path.leads, hname.ne_nil, hname.ne_dot]
  have hfollow : Path.follow here name = here ++ [name] := if_neg hname.ne_dots
  have hat : top.at? (here ++ [name]) = (folder cs).child? name := by
    rw [at?_concat, hhere]
    rfl
  simp [walk_cons_found_iff, hhere, hleads, hfollow, walk_nil_found_iff, hat, hname.ne_dots]

end FileNode

namespace Disk

variable {d : Disk} {folder : Text} {place : List Text} {cs : List (Text × FileNode)}

theorem arrive_append_found_iff (hfolder : d.arrive folder = .found place (.folder cs)) {name : Text}
    (hname : Path.IsProper name) {place' : List Text} {n : FileNode} :
    d.arrive (Path.append folder name) = .found place' n ↔
      (encodeUtf8 (Path.append folder name)).length < FileNode.pathByteLimit ∧
      (encodeUtf8 name).length ≤ FileNode.maxNameBytes ∧
      place ++ [name] = place' ∧ (FileNode.folder cs).child? name = some n := by
  obtain ⟨hne, -, hwalk⟩ := arrive_found hfolder
  have hrelative := Path.isAbsolute_of_not_mem hname.slash_not_mem
  obtain ⟨ps, hpieces, hbase⟩ := Path.exists_pieces_append hne hrelative
  have hlast : Path.pieces name = [name] := splitWhere_of_not_mem hname.slash_not_mem
  -- The walk to the name is the walk to the folder, whose empty last piece is passed over, and one step.
  have hfirst : d.top.walk (if Path.isAbsolute folder then [] else d.current) ps = .found place (.folder cs) := by
    rcases hbase with hbase | hbase
    · rw [← hbase]
      exact hwalk
    · rw [hbase] at hwalk
      exact FileNode.walk_of_walk_concat_nil hwalk
  rw [← FileNode.walk_singleton_found_iff (FileNode.walk_found hfirst).2 hname, arrive,
    if_neg (Path.append_ne_nil hname.ne_nil folder), Path.isAbsolute_append hne hrelative, hpieces, hlast]
  split
  · rename_i hlong
    have hnot : ¬ (encodeUtf8 (Path.append folder name)).length < FileNode.pathByteLimit := by omega
    simp [hnot]
  · rename_i hshort
    rw [FileNode.walk_append_found_iff]
    constructor
    · rintro ⟨between, m, hbetween, hrest⟩
      obtain ⟨rfl, -⟩ := FileNode.Arrival.found.inj (hbetween.symm.trans hfirst)
      exact ⟨by omega, hrest⟩
    · rintro ⟨-, hrest⟩
      exact ⟨place, _, hfirst, hrest⟩

theorem list_of_arrive (hnull : Path.hasNull folder = false)
    (hfolder : d.arrive folder = .found place (.folder cs)) :
    d.list folder = .ok (some (sortOn DirEntry.name (cs.map fun c => ⟨c.1, c.2.isFolder⟩)), []) := by
  rw [list, hnull, hfolder]
  rfl

theorem isFolder_of_arrive {path : Text} {n : FileNode} (hnull : Path.hasNull path = false)
    (h : d.arrive path = .found place n) : d.isFolder path = n.isFolder := by
  rw [isFolder, hnull, h]
  rfl

theorem mem_entries_of_isPresent (hfolder : d.arrive folder = .found place (.folder cs)) {name : Text}
    (hname : Path.IsProper name) (h : d.isPresent (Path.append folder name) = true) :
    ⟨name, d.isFolder (Path.append folder name)⟩ ∈ cs.map fun c => (⟨c.1, c.2.isFolder⟩ : DirEntry) := by
  obtain ⟨hpath, place', n, harrive⟩ := isPresent_iff.mp h
  obtain ⟨-, -, -, hchild⟩ := (arrive_append_found_iff hfolder hname).mp harrive
  rw [isFolder_of_arrive hpath harrive]
  obtain ⟨c, hc, rfl⟩ := Option.map_eq_some_iff.mp hchild
  have hcname : c.1 = name := by simpa using List.find?_some hc
  exact List.mem_map.mpr ⟨c, List.mem_of_find?_eq_some hc, by rw [hcname]⟩

/-- A folder whose names are proper, distinct and not too long lists what stands in it. -/
theorem lists (hnull : Path.hasNull folder = false) (hfolder : d.arrive folder = .found place (.folder cs))
    (hproper : ∀ c ∈ cs, Path.IsProper c.1) (hdistinct : (cs.map Prod.fst).Nodup)
    (hshort : ∀ c ∈ cs, (encodeUtf8 (Path.append folder c.1)).length < FileNode.pathByteLimit ∧
      (encodeUtf8 c.1).length ≤ FileNode.maxNameBytes) :
    d.fileSystem.Lists folder (sortOn DirEntry.name (cs.map fun c => ⟨c.1, c.2.isFolder⟩)) := by
  refine ⟨congrArg (Except.map Prod.fst) (list_of_arrive hnull hfolder), fun entry => ?_⟩
  rw [sortOn, List.mem_mergeSort]
  constructor
  · intro hmem
    obtain ⟨c, hc, rfl⟩ := List.mem_map.mp hmem
    have hname := hproper c hc
    obtain ⟨hpathShort, hnameShort⟩ := hshort c hc
    have harrive := (arrive_append_found_iff hfolder hname).mpr
      ⟨hpathShort, hnameShort, rfl, FileNode.child?_of_mem hdistinct hc⟩
    have hpath := Path.hasNull_append hnull hname.null_not_mem
    exact ⟨hname, isPresent_iff.mpr ⟨hpath, _, _, harrive⟩, isFolder_of_arrive hpath harrive⟩
  · rintro ⟨hname, hpresent, hkind⟩
    have hmem := mem_entries_of_isPresent hfolder hname hpresent
    have hentry : entry = ⟨entry.name, d.isFolder (Path.append folder entry.name)⟩ := by
      change d.isFolder _ = _ at hkind
      rw [hkind]
    rw [hentry]
    exact hmem

end Disk
end EditorInsight
