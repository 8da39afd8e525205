import Wayfinder.Proofs.Listing

/-!
# Which files are listed, and in which order

The listing of a root holds the Go files below it that are not kept in an ignored directory.
Pruning is by the names of the directories on the way: the name of the root does not count,
and neither does the name of the file.

* `Node.mem_filesBelow_iff`: the files that are found in a tree.
* `isGoName_iff`, `isTestFile_iff` and `isIgnoredDirectory_eq_false_iff`: what the names of files
  and directories mean, byte by byte.
* `goFiles_ascending`: the listing ascends name by name.
* `goFiles_exact`: the listing holds what it should, in order, and leaving out tests leaves
  out nothing else.
-/

namespace Wayfinder

/-! ## Files of a tree -/

namespace Node

/-- In a directory without repeated names, an entry is found by its name. -/
theorem lookup_eq_some_iff_mem {entries : List (Name × Node)}
    (h : (entries.map Prod.fst).Nodup) {name : Name} {node : Node} :
    entries.lookup name = some node ↔ (name, node) ∈ entries := by
  constructor
  · intro hlookup
    obtain ⟨front, back, rfl, _⟩ := List.lookup_eq_some_iff.1 hlookup
    simp
  · intro hmem
    obtain ⟨front, back, rfl⟩ := List.append_of_mem hmem
    refine List.lookup_eq_some_iff.2 ⟨front, back, rfl, ?_⟩
    intro entry hentry
    rw [List.map_append, List.nodup_append] at h
    have hne := h.2.2 entry.1 (List.mem_map_of_mem hentry) name (by simp)
    exact bne_iff_ne.2 hne.symm

/-- What is below a node in an entry of a directory. -/
theorem get?_cons_of_mem {entries : List (Name × Node)} (h : (Node.directory entries).Distinct)
    {name : Name} {node : Node} (hmem : (name, node) ∈ entries) (more : List Name) :
    (Node.directory entries).get? (name :: more) = node.get? more := by
  cases h with
  | directory _ hnames _ =>
    rw [get?, (lookup_eq_some_iff_mem hnames).2 hmem]

/-- The files below a directory are those of its entries, unless an entry is an ignored
directory. -/
theorem cons_mem_filesBelow_iff {entries : List (Name × Node)} {name : Name}
    {more : List Name} :
    name :: more ∈ (Node.directory entries).filesBelow ↔
      ∃ node, (name, node) ∈ entries ∧
        ¬ (node.isDirectory = true ∧ isIgnoredDirectory name = true) ∧ more ∈ node.filesBelow := by
  rw [filesBelow, filesOfEntries_eq_flatMap, List.mem_flatMap]
  unfold filesOfEntry
  constructor
  · rintro ⟨⟨first, node⟩, hentry, hmem⟩
    split at hmem
    · cases hmem
    · rename_i hentered
      obtain ⟨below, hbelow, hcons⟩ := List.mem_map.1 hmem
      obtain ⟨rfl, rfl⟩ := List.cons.inj hcons
      exact ⟨node, hentry, by simpa using hentered, hbelow⟩
  · rintro ⟨node, hentry, hentered, hmore⟩
    refine ⟨(name, node), hentry, ?_⟩
    rw [if_neg (by simpa using hentered)]
    exact List.mem_map_of_mem hmore

/-- A file is found unless a directory on the way to it is ignored. -/
theorem mem_filesBelow_iff {node : Node} (h : node.Distinct) {names : List Name} :
    names ∈ node.filesBelow ↔ (∃ content, node.get? names = some (.file content)) ∧
      ∀ name ∈ names.dropLast, isIgnoredDirectory name = false := by
  induction names generalizing node with
  | nil =>
    cases node with
    | file content => simp [filesBelow, get?]
    | directory entries =>
      have hnone : [] ∉ (Node.directory entries).filesBelow :=
        fun hmem => ne_nil_of_mem_filesBelow rfl hmem rfl
      simp [hnone, get?]
  | cons name more ih =>
    cases node with
    | file content => simp [filesBelow, get?]
    | directory entries =>
      rw [cons_mem_filesBelow_iff]
      constructor
      · rintro ⟨node, hentry, hentered, hmore⟩
        obtain ⟨⟨content, hget⟩, hways⟩ := (ih (h.entries _ hentry)).1 hmore
        refine ⟨⟨content, by rw [get?_cons_of_mem h hentry, hget]⟩, ?_⟩
        -- Only an entry that goes on is a directory on the way.
        cases more with
        | nil => simp
        | cons next rest =>
          have hdirectory : node.isDirectory = true := by
            cases node with
            | file other => cases hget
            | directory below => rfl
          intro other hother
          rw [List.dropLast_cons_of_ne_nil (List.cons_ne_nil next rest)] at hother
          rcases List.mem_cons.1 hother with rfl | hother
          · simpa [hdirectory] using hentered
          · exact hways other hother
      · rintro ⟨⟨content, hget⟩, hways⟩
        obtain ⟨node, hentry, hbelow⟩ := exists_entry_of_get?_cons hget
        refine ⟨node, hentry, ?_, (ih (h.entries _ hentry)).2 ⟨⟨content, hbelow⟩, ?_⟩⟩
        · rintro ⟨hdirectory, hignored⟩
          cases more with
          | nil =>
            rw [get?] at hbelow
            rw [Option.some.inj hbelow] at hdirectory
            cases hdirectory
          | cons next rest =>
            have hentered := hways name (by simp)
            rw [hignored] at hentered
            cases hentered
        · intro other hother
          cases more with
          | nil => cases hother
          | cons next rest =>
            refine hways other ?_
            rw [List.dropLast_cons_of_ne_nil (List.cons_ne_nil next rest)]
            exact List.mem_cons_of_mem _ hother

end Node

/-! ## Go files -/

/-- The extension of a name stands behind its last dot, and in front of that dot there is
something else. -/
theorem Path.extension?_eq_some_iff {name extension : List UInt8} :
    Path.extension? name = some extension ↔
      dot ∉ extension ∧ ∃ stem, stem ≠ [] ∧ name = stem ++ dot :: extension := by
  unfold Path.extension?
  constructor
  · intro h
    dsimp only at h
    split at h
    · rename_i first last stem hrest
      have hsplit : name.reverse.takeWhile (· != dot) ++ name.reverse.dropWhile (· != dot) =
          name.reverse := List.takeWhile_append_dropWhile
      have hdot : first = dot := by
        have hhead := List.head?_dropWhile_not (· != dot) name.reverse
        rw [hrest] at hhead
        simpa using hhead
      have hbehind := Option.some.inj h
      rw [hrest, hdot] at hsplit
      constructor
      · intro hmem
        rw [← hbehind, List.mem_reverse] at hmem
        simpa using List.all_eq_true.1 List.all_takeWhile _ hmem
      · refine ⟨(last :: stem).reverse, by simp, ?_⟩
        rw [← List.reverse_inj, ← hsplit]
        simp [← hbehind]
    · cases h
  · rintro ⟨hdot, stem, hstem, rfl⟩
    have hreverse : (stem ++ dot :: extension).reverse =
        extension.reverse ++ dot :: stem.reverse := by simp
    have hplain : ∀ byte ∈ extension.reverse, (byte != dot) = true := by
      intro byte hbyte
      rw [bne_iff_ne]
      intro heq
      exact hdot (heq ▸ List.mem_reverse.1 hbyte)
    dsimp only
    rw [hreverse, List.takeWhile_append_of_pos hplain, List.dropWhile_append_of_pos hplain]
    cases hback : stem.reverse with
    | nil => simp [hstem] at hback
    | cons last more => simp

/-- A file holds Go if its name ends in `.go` and is more than that. -/
theorem isGoName_iff {name : List UInt8} : isGoName name = true ↔ ∃ stem, stem ≠ [] ∧
    name = stem ++ Path.ofText ".go" := by
  have hgo : Path.ofText ".go" = Path.dot :: Path.ofText "go" := by decide
  unfold isGoName
  rw [beq_iff_eq, Path.extension?_eq_some_iff, hgo]
  exact and_iff_right (by decide)

theorem isTestFile_iff {path : Path} :
    isTestFile path = true ↔ Path.ofText "_test.go" <:+ path := by
  unfold isTestFile
  rw [List.isSuffixOf_iff_suffix]
  exact Text.Utf8.suffix_decodeLossy_iff (Text.Utf8.small_of_all (by decide))

/-- A directory is entered unless its name starts with a dot or an underscore, or is one of the
two that are kept for dependencies and test data. -/
theorem isIgnoredDirectory_eq_false_iff {name : Name} :
    isIgnoredDirectory name = false ↔ ¬ Path.ofText "." <+: name.bytes ∧
      ¬ Path.ofText "_" <+: name.bytes ∧ name.bytes ≠ Path.ofText "vendor" ∧
      name.bytes ≠ Path.ofText "testdata" := by
  have hfirst : ∀ {char : Char}, char.toNat < 0x80 →
      ((Path.display name.bytes).toList.head? = some char ↔
        [UInt8.ofNat char.toNat] <+: name.bytes) := by
    intro char hchar
    rw [Path.display, Text.Utf8.head?_decodeLossy_eq_some_iff hchar]
    constructor
    · intro hhead
      obtain ⟨rest, hrest⟩ := List.head?_eq_some_iff.1 hhead
      exact ⟨rest, hrest.symm⟩
    · rintro ⟨rest, hrest⟩
      rw [← hrest]
      rfl
  have hwhole : ∀ {text : String}, (∀ char ∈ text.toList, char.toNat < 0x80) →
      (Path.display name.bytes = text ↔ name.bytes = Path.ofText text) := by
    intro text htext
    rw [← Path.shown_eq_ofText_iff text htext]
    exact ⟨congrArg Path.ofText, Path.ofText_injective⟩
  have hdot : Path.ofText "." = [UInt8.ofNat '.'.toNat] := by decide
  have hunderscore : Path.ofText "_" = [UInt8.ofNat '_'.toNat] := by decide
  unfold isIgnoredDirectory
  simp only [Bool.or_eq_false_iff, beq_eq_false_iff_ne, and_assoc, ne_eq]
  rw [hfirst (by decide), hfirst (by decide), hwhole (Text.Utf8.small_of_all (by decide)),
    hwhole (Text.Utf8.small_of_all (by decide)), hdot, hunderscore]

/-! ## The order of a listing -/

/-- The paths of a listing ascend name by name. -/
def PathsAscend (paths : List Path) : Prop :=
  paths.Pairwise fun first second => Path.names first < Path.names second

theorem PathsAscend.nodup {paths : List Path} (h : PathsAscend paths) : paths.Nodup :=
  h.imp fun hlt heq => absurd (heq ▸ hlt) (List.lt_irrefl _)

/-- Ascending paths are given by their members. -/
theorem PathsAscend.eq_of_mem_iff {paths others : List Path} (hpaths : PathsAscend paths)
    (hothers : PathsAscend others) (hmem : ∀ path, path ∈ paths ↔ path ∈ others) :
    paths = others := by
  have hperm : paths.Perm others :=
    (List.perm_ext_iff_of_nodup hpaths.nodup hothers.nodup).2 hmem
  exact hperm.eq_of_pairwise (fun a b _ _ hab hba => absurd hba (List.lt_asymm hab)) hpaths
    hothers

/-- Places that are all different ascend once they are sorted. -/
theorem pairwise_lt_mergeSort {places : List (List Name)} (hplaces : places.Nodup) :
    (places.mergeSort fun a b => !decide (b.map Name.bytes < a.map Name.bytes)).Pairwise
      fun a b => a.map Name.bytes < b.map Name.bytes := by
  have hbefore : ∀ a b : List Name, (!decide (b.map Name.bytes < a.map Name.bytes)) = true ↔
      a.map Name.bytes ≤ b.map Name.bytes := by
    intro a b
    rw [Bool.not_eq_true', decide_eq_false_iff_not, List.not_lt]
  have hsorted : (places.mergeSort fun a b =>
      !decide (b.map Name.bytes < a.map Name.bytes)).Pairwise fun a b =>
        (!decide (b.map Name.bytes < a.map Name.bytes)) = true := by
    refine List.pairwise_mergeSort ?_ ?_ places
    · intro a b c hab hbc
      rw [hbefore] at hab hbc ⊢
      exact List.le_trans hab hbc
    · intro a b
      rw [Bool.or_eq_true, hbefore, hbefore]
      exact List.le_total _ _
  refine (hsorted.and (List.nodup_mergeSort.2 hplaces)).imp ?_
  rintro a b ⟨hab, hne⟩
  rw [hbefore] at hab
  rw [← List.not_le]
  exact fun hba => hne (Name.map_bytes_injective (List.le_antisymm hab hba))

/-- The listing ascends name by name. -/
theorem goFiles_ascending (host : Host) (root : Path) (includeTests : Bool) :
    PathsAscend (goFiles host root includeTests) := by
  unfold goFiles
  cases hnode : host.node root with
  | error fault => exact List.Pairwise.nil
  | ok node =>
    have hfiles := (Host.distinct_node hnode).nodup_filesBelow
    refine List.pairwise_map.2 ((pairwise_lt_mergeSort (hfiles.filter _)).imp ?_)
    intro a b hab
    rw [names_pathBelow, names_pathBelow]
    exact List.append_left_lt hab

/-! ## What a listing holds -/

theorem isListed_iff {includeTests : Bool} {path : Path} :
    isListed includeTests path = true ↔
      (∃ stem, stem ≠ [] ∧ Path.fileName? path = some (stem ++ Path.ofText ".go")) ∧
        (includeTests = true ∨ ¬ Path.ofText "_test.go" <:+ path) := by
  unfold isListed
  rw [Bool.and_eq_true, Bool.or_eq_true, Bool.not_eq_true', ← isTestFile_iff, Bool.not_eq_true]
  refine and_congr_left fun _ => ?_
  cases Path.fileName? path with
  | none => simp
  | some name => simp [isGoName_iff]

/-- A path that leads to a node is one that the machine takes. -/
theorem Host.length_le_of_node {host : Host} {path : Path} {node : Node}
    (h : host.node path = .ok node) : path.length ≤ Path.pathLimit := by
  unfold Host.node Host.locate at h
  obtain ⟨names, hlocate, _⟩ := exists_of_bind_eq_ok h
  obtain ⟨_, _, hlocate⟩ := exists_of_bind_eq_ok hlocate
  split at hlocate
  · cases hlocate
  · omega

/-- The machine lists every directory below a root that is not ignored: it takes the paths of
all of them. -/
def Node.Walkable (top : Node) (root : Path) : Prop :=
  ∀ names entries, top.get? names = some (.directory entries) →
    (∀ name ∈ names, isIgnoredDirectory name = false) →
      (pathBelow root names).length ≤ Path.pathLimit

theorem Node.Walkable.isReachable {host : Host} {root : Path} {top : Node}
    (h : top.Walkable root) (htop : host.node root = .ok top) {names : List Name}
    {content : List UInt8} (hfile : top.get? names = some (.file content))
    (hways : ∀ name ∈ names.dropLast, isIgnoredDirectory name = false) :
    isReachable root names = true := by
  unfold Wayfinder.isReachable
  rw [decide_eq_true_eq]
  rcases List.eq_nil_or_concat' names with rfl | ⟨front, last, rfl⟩
  · -- The root itself is a file, and the machine has taken its path.
    exact Host.length_le_of_node htop
  · rw [List.dropLast_concat] at hways ⊢
    rw [Node.get?_append] at hfile
    obtain ⟨directory, hfront, hlast⟩ := Option.bind_eq_some_iff.1 hfile
    cases directory with
    | file other => cases hlast
    | directory entries => exact h front entries hfront hways

/-- An absolute path of names that leads to a node leads to the node at these names. -/
theorem Host.get?_of_node_absolute {host : Host} {names : List Name} {node : Node}
    (h : host.node (Path.absolute names) = .ok node) : host.root.get? names = some node := by
  obtain ⟨reached, hlocate, hget⟩ := exists_get?_of_node h
  rwa [(locate_eq_ok_iff.1 hlocate).2.eq_of_absolute] at hget

/-- Below an absolute root, the machine lists all directories. -/
theorem Host.walkable_absolute {host : Host} {root : List Name} {top : Node}
    (htop : host.node (Path.absolute root) = .ok top) : top.Walkable (Path.absolute root) := by
  intro names entries hget _
  have hplace : host.root.get? (root ++ names) = some (.directory entries) := by
    rw [Node.get?_append, get?_of_node_absolute htop, Option.bind_some, hget]
  rw [pathBelow_absolute]
  exact length_absolute_le hplace

/-- The file with the given names below a root belongs to the listing of the root. -/
structure Node.Lists (top : Node) (root : Path) (includeTests : Bool) (names : List Name) :
    Prop where
  isFile : ∃ content, top.get? names = some (.file content)
  /-- No directory between the root and the file is hidden, private, or kept for dependencies
  or test data. -/
  entered : ∀ name ∈ names.dropLast, ¬ Path.ofText "." <+: name.bytes ∧
    ¬ Path.ofText "_" <+: name.bytes ∧ name.bytes ≠ Path.ofText "vendor" ∧
    name.bytes ≠ Path.ofText "testdata"
  /-- The extension of the file is `go`. -/
  isGo : ∃ stem, stem ≠ [] ∧
    Path.fileName? (pathBelow root names) = some (stem ++ Path.ofText ".go")
  isWanted : includeTests = true ∨ ¬ Path.ofText "_test.go" <:+ pathBelow root names

theorem mem_goFiles_iff_lists {host : Host} {root : Path} {top : Node}
    (htop : host.node root = .ok top) (hwalk : top.Walkable root) (includeTests : Bool)
    (path : Path) :
    path ∈ goFiles host root includeTests ↔
      ∃ names, top.Lists root includeTests names ∧ path = pathBelow root names := by
  have hbelow : top.Distinct := Host.distinct_node htop
  rw [mem_goFiles_iff]
  constructor
  · rintro ⟨node, names, hnode, hnames, _, hlisted, rfl⟩
    obtain rfl := Except.ok.inj (htop.symm.trans hnode)
    obtain ⟨hfile, hways⟩ := (Node.mem_filesBelow_iff hbelow).1 hnames
    obtain ⟨hgo, hwanted⟩ := isListed_iff.1 hlisted
    refine ⟨names, ⟨hfile, ?_, hgo, hwanted⟩, rfl⟩
    intro name hname
    exact isIgnoredDirectory_eq_false_iff.1 (hways name hname)
  · rintro ⟨names, hlists, rfl⟩
    obtain ⟨content, hfile⟩ := hlists.isFile
    have hways : ∀ name ∈ names.dropLast, isIgnoredDirectory name = false :=
      fun name hname => isIgnoredDirectory_eq_false_iff.2 (hlists.entered name hname)
    exact ⟨top, names, htop, (Node.mem_filesBelow_iff hbelow).2 ⟨⟨content, hfile⟩, hways⟩,
      hwalk.isReachable htop hfile hways, isListed_iff.2 ⟨hlists.isGo, hlists.isWanted⟩, rfl⟩

/-- Without tests, a listing loses the test files and nothing else. -/
theorem goFiles_without_tests (host : Host) (root : Path) :
    goFiles host root false =
      (goFiles host root true).filter fun path => !isTestFile path := by
  have hascend := goFiles_ascending host root
  have hlisted : ∀ path, isListed false path = true ↔
      isListed true path = true ∧ (!isTestFile path) = true := by
    intro path
    simp [isListed]
  refine (hascend false).eq_of_mem_iff ((hascend true).filter _) fun path => ?_
  rw [List.mem_filter, mem_goFiles_iff, mem_goFiles_iff]
  constructor
  · rintro ⟨node, names, hnode, hnames, hreachable, hkept, rfl⟩
    obtain ⟨hgo, hwanted⟩ := (hlisted _).1 hkept
    exact ⟨⟨node, names, hnode, hnames, hreachable, hgo, rfl⟩, hwanted⟩
  · rintro ⟨⟨node, names, hnode, hnames, hreachable, hgo, rfl⟩, hwanted⟩
    exact ⟨node, names, hnode, hnames, hreachable, (hlisted _).2 ⟨hgo, hwanted⟩, rfl⟩

/-- The listing of a root is exact.  A file below the root is listed if and only if it holds Go,
no ignored directory keeps it, and it is no test file that is left out; nothing else is listed.
The listing ascends name by name, so no path is listed twice, and without tests it is the whole
listing less the test files. -/
theorem goFiles_exact {host : Host} {root : Path} {top : Node}
    (htop : host.node root = .ok top) (hwalk : top.Walkable root) :
    (∀ includeTests names content, top.get? names = some (.file content) →
      (pathBelow root names ∈ goFiles host root includeTests ↔
        top.Lists root includeTests names)) ∧
    (∀ includeTests, ∀ path ∈ goFiles host root includeTests,
      ∃ names content, top.get? names = some (.file content) ∧ path = pathBelow root names) ∧
    (∀ includeTests, PathsAscend (goFiles host root includeTests) ∧
      (goFiles host root includeTests).Nodup) ∧
    goFiles host root false =
      (goFiles host root true).filter fun path => !isTestFile path := by
  have hmem := mem_goFiles_iff_lists htop hwalk
  have hascend := goFiles_ascending host root
  refine ⟨?_, ?_, fun includeTests => ⟨hascend includeTests, (hascend includeTests).nodup⟩,
    goFiles_without_tests host root⟩
  · intro includeTests names content hfile
    rw [hmem]
    constructor
    · rintro ⟨others, hlists, hpath⟩
      rwa [pathBelow_injective hpath]
    · intro hlists
      exact ⟨names, hlists, rfl⟩
  · intro includeTests path hpath
    obtain ⟨names, hlists, rfl⟩ := (hmem includeTests path).1 hpath
    obtain ⟨content, hfile⟩ := hlists.isFile
    exact ⟨names, content, hfile, rfl⟩

/-- A workspace with a package, a test file, and a dependency. -/
def vendoredTree : Node :=
  .directory
    [(⟨Path.ofText "a", by decide⟩, .directory [(⟨Path.ofText "b.go", by decide⟩, .file [])]),
      (⟨Path.ofText "a_test.go", by decide⟩, .file []),
      (⟨Path.ofText "vendor", by decide⟩,
        .directory [(⟨Path.ofText "c.go", by decide⟩, .file [])])]

/-- A machine with that workspace, in a directory that would be ignored below a root. -/
def vendoredHost : Host where
  root := .directory [(⟨Path.ofText "_w", by decide⟩, vendoredTree)]
  isDirectory := rfl
  isRegular := by decide
  workingDirectory := []
  programs _ := none

/-- The package is listed, the test file only with the tests, and the dependency never. -/
theorem goFiles_exact_vendored :
    Path.ofText "/_w/a/b.go" ∈ goFiles vendoredHost (Path.ofText "/_w") false ∧
    Path.ofText "/_w/a_test.go" ∈ goFiles vendoredHost (Path.ofText "/_w") true ∧
    Path.ofText "/_w/a_test.go" ∉ goFiles vendoredHost (Path.ofText "/_w") false ∧
    Path.ofText "/_w/vendor/c.go" ∉ goFiles vendoredHost (Path.ofText "/_w") true ∧
    PathsAscend (goFiles vendoredHost (Path.ofText "/_w") true) := by
  have htop : vendoredHost.node (Path.absolute [⟨Path.ofText "_w", by decide⟩]) =
      .ok vendoredTree := by rfl
  obtain ⟨hlisted, _, hascend, _⟩ := goFiles_exact htop (Host.walkable_absolute htop)
  refine ⟨?_, ?_, ?_, ?_, (hascend true).1⟩
  · exact (hlisted false [⟨Path.ofText "a", by decide⟩, ⟨Path.ofText "b.go", by decide⟩] [] rfl).2
      ⟨⟨[], rfl⟩, by decide, ⟨Path.ofText "b", by decide, by decide⟩, .inr (by decide)⟩
  · exact (hlisted true [⟨Path.ofText "a_test.go", by decide⟩] [] rfl).2
      ⟨⟨[], rfl⟩, by decide, ⟨Path.ofText "a_test", by decide, by decide⟩, .inl rfl⟩
  · intro hmem
    rcases ((hlisted false [⟨Path.ofText "a_test.go", by decide⟩] [] rfl).1 hmem).isWanted with
      htests | hwanted
    · cases htests
    · exact hwanted (by decide)
  · intro hmem
    have hentered := ((hlisted true [⟨Path.ofText "vendor", by decide⟩,
      ⟨Path.ofText "c.go", by decide⟩] [] rfl).1 hmem).entered _ List.mem_cons_self
    exact hentered.2.2.1 rfl

end Wayfinder
