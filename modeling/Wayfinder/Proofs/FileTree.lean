import Wayfinder.Workspace
import Wayfinder.Proofs.Paths

/-!
# One path for every file

A machine reaches a file by many paths, but the canonical path of a file and the path
under which it is listed below a canonical root are the same.

* `Node.Distinct`: no directory below a node has two entries of one name.  This and
  `Host.length_absolute_le` are what it means for the tree of a machine to be regular.
* `Node.Leads` says where the parts of a path lead in a tree, and `Host.Leads` where a path
  leads on a machine.  Neither looks at lengths.
* `Node.follow_eq_ok_iff` and `Host.locate_eq_ok_iff`: that is what a machine follows.
* `Host.Leads.eq_of_absolute` and `Host.Leads.shown_absolute`: an absolute path leads nowhere
  but to its names, and what shows it nowhere but to what has this as its absolute path.
* `exists_names_of_mem_goFiles`: listed paths are absolute paths of names.
-/

namespace Wayfinder

/-- Where two steps succeed together, each of them does. -/
theorem exists_of_bind_eq_ok {ε α β : Type} {first : Except ε α} {next : α → Except ε β}
    {result : β} (h : first >>= next = .ok result) :
    ∃ value, first = .ok value ∧ next value = .ok result := by
  cases first with
  | error fault => cases h
  | ok value => exact ⟨value, rfl, h⟩

/-! ## Nodes of a tree -/

namespace Node

variable {root node below : Node} {here names : List Name}

theorem get?_append (node : Node) (front back : List Name) :
    node.get? (front ++ back) = (node.get? front).bind (·.get? back) := by
  induction front generalizing node with
  | nil => rfl
  | cons name more ih =>
    cases node with
    | file content => rfl
    | directory entries =>
      rw [List.cons_append, get?, get?]
      cases entries.lookup name with
      | none => rfl
      | some below => exact ih below

theorem exists_entry_of_get?_cons {entries : List (Name × Node)} {name : Name}
    {more : List Name} (h : (Node.directory entries).get? (name :: more) = some below) :
    ∃ node, (name, node) ∈ entries ∧ node.get? more = some below := by
  rw [get?] at h
  cases hlookup : entries.lookup name with
  | none => simp [hlookup] at h
  | some node =>
    rw [hlookup] at h
    obtain ⟨front, back, rfl, _⟩ := List.lookup_eq_some_iff.1 hlookup
    exact ⟨node, by simp, h⟩

/-- No directory below a node has two entries of one name. -/
inductive Distinct : Node → Prop where
  | file (content : List UInt8) : Distinct (.file content)
  | directory (entries : List (Name × Node)) (names : (entries.map Prod.fst).Nodup)
      (nodes : ∀ entry ∈ entries, Distinct entry.2) : Distinct (.directory entries)

theorem Distinct.entries {entries : List (Name × Node)} (h : (Node.directory entries).Distinct) :
    ∀ entry ∈ entries, entry.2.Distinct := by
  cases h with
  | directory _ _ hnodes => exact hnodes

theorem Distinct.get? (h : node.Distinct) (hbelow : node.get? names = some below) :
    below.Distinct := by
  induction names generalizing node with
  | nil => exact Option.some.inj hbelow ▸ h
  | cons name more ih =>
    cases node with
    | file content => cases hbelow
    | directory entries =>
      obtain ⟨next, hentry, hmore⟩ := exists_entry_of_get?_cons hbelow
      exact ih (h.entries _ hentry) hmore

/-! ### Regular trees -/

variable {length : Nat} {entries : List (Name × Node)}

theorem areRegular_iff :
    areRegular length entries = true ↔ (entries.map Prod.fst).Nodup ∧ ∀ entry ∈ entries,
      length + 1 + entry.1.bytes.length ≤ Path.pathLimit ∧
        entry.2.isRegular (length + 1 + entry.1.bytes.length) = true := by
  induction entries with
  | nil => simp [areRegular]
  | cons entry more ih =>
    obtain ⟨name, node⟩ := entry
    have hnew : (more.lookup name).isNone = true ↔ name ∉ more.map Prod.fst := by
      rw [Option.isNone_iff_eq_none, List.lookup_eq_none_iff]
      simp only [List.mem_map, not_exists, not_and]
      constructor
      · intro h other hother heq
        exact bne_iff_ne.1 (h other hother) heq.symm
      · intro h other hother
        exact bne_iff_ne.2 fun heq => h other hother heq.symm
    rw [areRegular, Bool.and_eq_true, Bool.and_eq_true, Bool.and_eq_true, hnew, ih,
      decide_eq_true_iff, List.map_cons, List.nodup_cons, List.forall_mem_cons]
    tauto

theorem distinct_of_isRegular {node : Node} {length : Nat} (h : node.isRegular length = true) :
    node.Distinct := by
  match node with
  | .file content => exact .file content
  | .directory entries =>
    rw [isRegular, areRegular_iff] at h
    exact .directory entries h.1 fun entry hentry => distinct_of_isRegular (h.2 entry hentry).2
termination_by node
decreasing_by
  have hsize := List.sizeOf_lt_of_mem hentry
  obtain ⟨name, below⟩ := entry
  simp only [Node.directory.sizeOf_spec, Prod.mk.sizeOf_spec] at hsize ⊢
  omega

/-- The paths below a regular node are not too long. -/
theorem length_le_of_isRegular (lead : Path) (h : node.isRegular lead.length = true)
    (hbelow : node.get? names = some below) (hne : names ≠ []) :
    (lead ++ names.flatMap fun name => Path.slash :: name.bytes).length ≤ Path.pathLimit := by
  induction names generalizing node lead with
  | nil => exact absurd rfl hne
  | cons name more ih =>
    cases node with
    | file content => cases hbelow
    | directory entries =>
      obtain ⟨next, hentry, hmore⟩ := exists_entry_of_get?_cons hbelow
      rw [isRegular, areRegular_iff] at h
      obtain ⟨hle, hnext⟩ := h.2 _ hentry
      rw [List.flatMap_cons, ← List.append_assoc]
      have hlength : (lead ++ Path.slash :: name.bytes).length =
          lead.length + 1 + name.bytes.length := by
        rw [List.length_append, List.length_cons]
        omega
      by_cases hlast : more = []
      · rw [hlast, List.flatMap_nil, List.append_nil, hlength]
        exact hle
      · rw [← hlength] at hnext
        exact ih _ hnext hmore hlast

/-! ### Following -/

/-- What can be entered is what stands in the tree. -/
theorem enter_eq_ok_iff {part : List UInt8} {there : List Name} :
    root.enter here part = .ok there ↔ ∃ name : Name, name.bytes = part ∧
      there = here ++ [name] ∧ (root.get? (here ++ [name])).isSome = true := by
  have hentry : ∀ {entries name}, root.get? here = some (.directory entries) →
      (root.get? (here ++ [name])).isSome = (entries.lookup name).isSome := by
    intro entries name hhere
    rw [get?_append, hhere, Option.bind_some, get?]
    cases entries.lookup name <;> rfl
  unfold enter
  constructor
  · intro h
    split at h
    · cases h
    · cases h
    · rename_i entries hhere
      split at h
      · cases h
      · split at h
        · rename_i name hname
          split at h
          · rename_i hlookup
            refine ⟨name, Name.ofBytes?_eq_some_iff.1 hname, (Except.ok.inj h).symm, ?_⟩
            rw [hentry hhere, hlookup]
          · cases h
        · cases h
  · rintro ⟨name, rfl, rfl, hsome⟩
    cases hhere : root.get? here with
    | none => simp [get?_append, hhere] at hsome
    | some node =>
      cases node with
      | file content => simp [get?_append, hhere, get?] at hsome
      | directory entries =>
        rw [hentry hhere] at hsome
        have hlength := name.length_le
        simp only [Name.ofBytes?_eq_some_iff.2 rfl]
        rw [if_neg (by omega), if_pos hsome]

/-- The parts of a path lead from one node of a tree to another.  A name leads to an entry, two
dots lead to the directory above, and idle parts stay where they are; all but the last need a
directory. -/
inductive Leads (root : Node) : List Name → List (List UInt8) → List Name → Prop where
  | done (here : List Name) : Leads root here [] here
  | idle {here there : List Name} {part : List UInt8} {more : List (List UInt8)}
      (hpart : Path.isIdle part = true) (hhere : root.isDirectoryAt here = true)
      (hmore : Leads root here more there) : Leads root here (part :: more) there
  | up {here there : List Name} {part : List UInt8} {more : List (List UInt8)}
      (hpart : Path.leadsUp part = true) (hhere : root.isDirectoryAt here = true)
      (hmore : Leads root here.dropLast more there) : Leads root here (part :: more) there
  | name {here there : List Name} {name : Name} {more : List (List UInt8)}
      (hentry : (root.get? (here ++ [name])).isSome = true)
      (hmore : Leads root (here ++ [name]) more there) : Leads root here (name.bytes :: more) there

theorem not_isIdle_of_leadsUp {part : List UInt8} (h : Path.leadsUp part = true) :
    Path.isIdle part = false := by
  rw [eq_of_beq h]
  rfl

/-- A machine reaches what the parts of a path lead to. -/
theorem follow_eq_ok_iff {parts : List (List UInt8)} {there : List Name} :
    root.follow here parts = .ok there ↔ root.Leads here parts there := by
  constructor
  · intro h
    induction parts generalizing here with
    | nil =>
      obtain rfl := Except.ok.inj h
      exact .done here
    | cons part more ih =>
      rw [follow] at h
      split at h
      · rename_i hstays
        split at h
        · rename_i hhere
          cases hidle : Path.isIdle part with
          | true =>
            rw [hidle, if_pos rfl] at h
            exact .idle hidle hhere (ih h)
          | false =>
            rw [hidle, Bool.false_or] at hstays
            rw [hidle, if_neg Bool.false_ne_true] at h
            exact .up hstays hhere (ih h)
        · cases h
      · obtain ⟨next, henter, h⟩ := exists_of_bind_eq_ok h
        obtain ⟨name, rfl, rfl, hentry⟩ := enter_eq_ok_iff.1 henter
        exact .name hentry (ih h)
  · intro h
    induction h with
    | done here => rfl
    | idle hpart hhere _ ih =>
      rw [follow, hpart, Bool.true_or, if_pos rfl, if_pos hhere, if_pos rfl, ih]
    | up hpart hhere _ ih =>
      rw [follow, hpart, Bool.or_true, if_pos rfl, if_pos hhere, not_isIdle_of_leadsUp hpart,
        if_neg Bool.false_ne_true, ih]
    | @name here there name more hentry _ ih =>
      rw [follow, name.isIdle_bytes, name.leadsUp_bytes, Bool.or_false,
        if_neg Bool.false_ne_true, enter_eq_ok_iff.2 ⟨name, rfl, rfl, hentry⟩]
      exact ih

/-- Parts of which none leads up lead to those of them that are names. -/
theorem Leads.map_bytes {parts : List (List UInt8)} {there : List Name}
    (h : root.Leads here parts there) (hparts : ∀ part ∈ parts, Path.leadsUp part = false) :
    there.map Name.bytes = here.map Name.bytes ++ parts.filter fun part => !Path.isIdle part := by
  induction h with
  | done here => simp
  | idle hpart _ _ ih =>
    rw [ih (List.forall_mem_cons.1 hparts).2, List.filter_cons_of_neg (by simp [hpart])]
  | up hpart _ _ _ =>
    rw [(List.forall_mem_cons.1 hparts).1] at hpart
    cases hpart
  | name _ _ ih =>
    rw [ih (List.forall_mem_cons.1 hparts).2, List.filter_cons_of_pos (by simp)]
    simp

end Node

/-! ## Machines and listings -/

namespace Host

variable {host : Host} {names : List Name} {path : Path} {node : Node}

/-- No directory of a machine has two entries of one name. -/
theorem distinct (host : Host) : host.root.Distinct :=
  Node.distinct_of_isRegular host.isRegular

/-- The machine takes the absolute path of every node. -/
theorem length_absolute_le (h : host.root.get? names = some node) :
    (Path.absolute names).length ≤ Path.pathLimit := by
  by_cases hne : names = []
  · rw [hne]
    decide
  · rw [Path.absolute_eq_flatMap hne]
    exact Node.length_le_of_isRegular [] host.isRegular h hne

/-- A canonical path is an absolute path of names. -/
theorem exists_names_of_canonical {canonical : Path}
    (h : host.canonical path = .ok canonical) : ∃ names, canonical = Path.absolute names := by
  unfold Host.canonical at h
  obtain ⟨_, _, h⟩ := exists_of_bind_eq_ok h
  obtain ⟨names, _, h⟩ := exists_of_bind_eq_ok h
  exact ⟨names, (Except.ok.inj h).symm⟩

/-- A path leads to a node of a machine. -/
structure Leads (host : Host) (path : Path) (place : List Name) : Prop where
  isPath : checkPath path = .ok ()
  leads : host.root.Leads (host.start path) path.parts place

/-- A machine takes a path that leads anywhere if it is not too long. -/
theorem locate_eq_ok_iff {place : List Name} :
    host.locate path = .ok place ↔ path.length ≤ Path.pathLimit ∧ host.Leads path place := by
  unfold locate
  constructor
  · intro h
    obtain ⟨_, hpath, h⟩ := exists_of_bind_eq_ok h
    split at h
    · cases h
    · exact ⟨by omega, hpath, Node.follow_eq_ok_iff.1 h⟩
  · rintro ⟨hlength, hleads⟩
    rw [hleads.isPath, ← Node.follow_eq_ok_iff.2 hleads.leads]
    exact if_neg (by omega)

/-- From the root, a path that does not lead up leads to its own names. -/
theorem Leads.map_bytes {place : List Name} (h : host.Leads path place)
    (habsolute : path.isAbsolute = true)
    (hparts : ∀ part ∈ path.parts, Path.leadsUp part = false) :
    place.map Name.bytes = path.names := by
  have hleads := h.leads
  rw [start, habsolute, if_pos rfl] at hleads
  exact hleads.map_bytes hparts

/-- An absolute path of names leads nowhere but to these names. -/
theorem Leads.eq_of_absolute {place : List Name} (h : host.Leads (Path.absolute names) place) :
    place = names := by
  have hbytes := h.map_bytes (Path.isAbsolute_absolute names)
    fun _ => Path.leadsUp_of_mem_parts_absolute
  rw [Path.names_absolute] at hbytes
  exact Name.map_bytes_injective hbytes

/-- What shows an absolute path leads nowhere but to the node that has it as its absolute
path. -/
theorem Leads.shown_absolute {place : List Name}
    (h : host.Leads (Path.absolute names).shown place) :
    (Path.absolute names).shown = Path.absolute place := by
  have hparts : ∀ part ∈ (Path.absolute names).shown.parts, Path.leadsUp part = false := by
    rw [Path.parts_shown, List.forall_mem_map]
    intro part hpart
    rw [Path.leadsUp_shown, Path.leadsUp_of_mem_parts_absolute hpart]
  have hbytes := h.map_bytes (Path.isAbsolute_shown (Path.isAbsolute_absolute names)) hparts
  rw [Path.names_shown, Path.names_absolute] at hbytes
  exact Path.shown_absolute hbytes

/-- A file that can be read has a place in the tree. -/
theorem exists_locate_of_readText {text : String} (h : host.readText path = .ok text) :
    ∃ names, host.locate path = .ok names := by
  unfold readText node at h
  obtain ⟨node, hnode, _⟩ := exists_of_bind_eq_ok h
  obtain ⟨names, hlocate, _⟩ := exists_of_bind_eq_ok hnode
  exact ⟨names, hlocate⟩

/-- A node that a path leads to has a place in the tree. -/
theorem exists_get?_of_node (h : host.node path = .ok node) :
    ∃ names, host.locate path = .ok names ∧ host.root.get? names = some node := by
  unfold Host.node at h
  obtain ⟨names, hlocate, h⟩ := exists_of_bind_eq_ok h
  cases hfound : host.root.get? names with
  | none => simp [hfound] at h
  | some found =>
    rw [hfound] at h
    exact ⟨names, hlocate, by rw [hfound, Except.ok.inj h]⟩

theorem distinct_node (h : host.node path = .ok node) : node.Distinct := by
  obtain ⟨names, _, hget⟩ := exists_get?_of_node h
  exact host.distinct.get? hget

end Host

/-- The path of a file below a canonical root. -/
theorem pathBelow_absolute (root names : List Name) :
    pathBelow (Path.absolute root) names = Path.absolute (root ++ names) := by
  induction names generalizing root with
  | nil =>
    rw [List.append_nil]
    rfl
  | cons name more ih =>
    have hstep : pathBelow (Path.absolute root) (name :: more) =
        pathBelow (Path.join (Path.absolute root) name.bytes) more := rfl
    rw [hstep, Path.join_absolute, ih, List.append_assoc, List.singleton_append]

theorem mem_goFiles_iff {host : Host} {root file : Path} {includeTests : Bool} :
    file ∈ goFiles host root includeTests ↔ ∃ node names, host.node root = .ok node ∧
      names ∈ node.filesBelow ∧ isReachable root names = true ∧
      isListed includeTests (pathBelow root names) = true ∧ file = pathBelow root names := by
  unfold goFiles
  cases hnode : host.node root with
  | error fault => simp
  | ok node =>
    simp only [List.mem_map, List.mem_mergeSort, List.mem_filter, Bool.and_eq_true,
      Except.ok.injEq]
    constructor
    · rintro ⟨names, ⟨hnames, hreachable, hlisted⟩, rfl⟩
      exact ⟨node, names, rfl, hnames, hreachable, hlisted, rfl⟩
    · rintro ⟨_, names, rfl, hnames, hreachable, hlisted, rfl⟩
      exact ⟨names, ⟨hnames, hreachable, hlisted⟩, rfl⟩

/-- A file listed below a canonical root has an absolute path of names. -/
theorem exists_names_of_mem_goFiles {host : Host} {root : List Name} {file : Path}
    {includeTests : Bool} (h : file ∈ goFiles host (Path.absolute root) includeTests) :
    ∃ names, file = Path.absolute names := by
  obtain ⟨_, names, _, _, _, _, rfl⟩ := mem_goFiles_iff.1 h
  exact ⟨root ++ names, pathBelow_absolute root names⟩

/-- The name of a workspace directly below the root of a machine. -/
def workspaceName : Name :=
  ⟨Path.ofText "w", by decide⟩

end Wayfinder
