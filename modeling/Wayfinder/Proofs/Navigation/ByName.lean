import Wayfinder.Engine
import Wayfinder.Proofs.Anchors
import Wayfinder.Proofs.FileTree
import Wayfinder.Proofs.Navigation.Resolve

/-!
# Navigation by name

With the lookup by name, navigation makes two passes over the workspace.  The lookup opens
the document again, finds the hint again from a place on its name, and scans every Go file
for counterparts.  The navigator opens each document of the answer again, drops places, and
labels what is left by the declaration around it.  This module says what both passes come
to.

* `Lookup.ByName.lookup_position`: the place of a hint is answered with the counterparts of
  that very hint.
* `Engine.Counterpart` says which methods are offered, and
  `Engine.Counterpart.targetAt?_eq` that each is labelled with its own declaration.
-/

namespace Wayfinder

/-! ## Finding a hint again -/

/-- A document that was opened is made from a text. -/
theorem Workspace.exists_text {workspace : Workspace} {host : Host} {name : String}
    {document : Document} (h : workspace.openDocument host name = .ok document) :
    ∃ text, document = .ofText text := by
  unfold openDocument at h
  cases hread : host.readText (workspace.resolve name) with
  | error fault => simp [hread] at h
  | ok text =>
    simp only [hread, Except.ok.injEq] at h
    exact ⟨text, h.symm⟩

namespace Lookup.ByName

variable {host : Host} {workspace : Workspace} {root : Path} {name file : String}
  {lookahead : Nat} {includeTests : Bool} {document : Document} {hint : Hint}
  {location : Location}

/-- The names under which the Go files below a root are opened. -/
def fileNames (host : Host) (root : Path) (includeTests : Bool) : List String :=
  (goFiles host root includeTests).map Path.display

/-- The place that stands for a hint leads back to it. -/
theorem hintAt?_position {text : String} (h : hint ∈ (Document.ofText text).hints lookahead) :
    hintAt? ((Document.ofText text).hints lookahead) hint.position = some hint := by
  have hcovers : hint.covers hint.position.line hint.position.character = true :=
    Hint.covers_iff.2 ⟨rfl, Nat.le_refl _, Document.hint_startColumn_lt h⟩
  rw [hintAt?, Document.find?_covers h hcovers]
  rfl

theorem mem_counterpartsIn_iff :
    location ∈ counterpartsIn host workspace lookahead hint file ↔
      ∃ opened, workspace.openDocument host file = .ok opened ∧
        ∃ other ∈ opened.hints lookahead, hint.isCounterpart other = true ∧
          location = other.location file := by
  unfold counterpartsIn
  cases hopen : workspace.openDocument host file with
  | error failure => simp
  | ok opened =>
    simp only [Except.ok.injEq, exists_eq_left', List.mem_map, List.mem_filter]
    constructor
    · rintro ⟨other, ⟨hother, hcounterpart⟩, rfl⟩
      exact ⟨other, hother, hcounterpart, rfl⟩
    · rintro ⟨other, hother, hcounterpart, rfl⟩
      exact ⟨other, ⟨hother, hcounterpart⟩, rfl⟩

/-- The place of a hint is answered with the counterparts of that hint in all files. -/
theorem lookup_position (hopen : (Workspace.rootedAt root).openDocument host name = .ok document)
    (hhint : hint ∈ document.hints lookahead) :
    lookup host root lookahead includeTests name hint.position =
      .ok ((fileNames host root includeTests).flatMap
        (counterpartsIn host (Workspace.rootedAt root) lookahead hint)) := by
  obtain ⟨text, rfl⟩ := Workspace.exists_text hopen
  simp only [lookup, hopen, hintAt?_position hhint, bind, Except.bind, fileNames,
    List.flatMap_map]
  rfl

end Lookup.ByName

/-- A hint at a place of a document is one of the document's hints. -/
theorem Navigator.exists_opened_of_hintAt {navigator : Navigator} {document : String}
    {line : Nat} {column : Option Nat} {hint : Hint}
    (h : navigator.hintAt document line column = .ok (some hint)) :
    ∃ opened, navigator.openDocument document = .ok opened ∧
      hint ∈ opened.hints navigator.lookahead := by
  unfold hintAt hints outline at h
  obtain ⟨hints, hhints, h⟩ := exists_of_bind_eq_ok h
  obtain ⟨outline, houtline, hhints⟩ := exists_of_bind_eq_ok hhints
  obtain ⟨opened, hopen, houtline⟩ := exists_of_bind_eq_ok houtline
  obtain rfl := Except.ok.inj houtline
  obtain rfl := Except.ok.inj hhints
  exact ⟨opened, hopen, List.mem_of_find?_eq_some (Except.ok.inj h)⟩

namespace Engine

variable {engine : Engine} {host : Host} {request : NavigateRequest} {document : String}
  {hint : Hint}

/-- A hint that a request finds is one of the document that the request names. -/
theorem exists_opened_of_hintFor (h : engine.hintFor host request = .ok (document, hint)) :
    engine.documentId host request.path = .ok document ∧
      ∃ opened, engine.workspace.openDocument host document = .ok opened ∧
        hint ∈ opened.hints engine.settings.lookahead := by
  unfold hintFor at h
  obtain ⟨id, hid, h⟩ := exists_of_bind_eq_ok h
  obtain ⟨found, hat, h⟩ := exists_of_bind_eq_ok h
  cases found with
  | none => cases h
  | some other =>
    obtain ⟨rfl, rfl⟩ := Prod.mk.inj (Except.ok.inj h)
    exact ⟨hid, Navigator.exists_opened_of_hintAt hat⟩

/-- A request that finds a hint is answered with what is offered for it. -/
theorem navigate_of_hintFor (h : engine.hintFor host request = .ok (document, hint)) :
    engine.navigate host request =
      .ok { hint := hint, outcome := (engine.navigator host).activate document hint } := by
  simp only [navigate, h, bind, Except.bind]
  rfl

/-! ## Counterparts -/

/-- A method that is offered for a hint of a document: it stands on the other side, has the
same name, and is declared in a Go file of the workspace that can be read. -/
structure Counterpart (engine : Engine) (host : Host) (document : String) (hint : Hint)
    (file : String) (opened : Document) (other : Hint) : Prop where
  listed : file ∈ Lookup.ByName.fileNames host engine.settings.workspace
    engine.settings.includeTests
  readable : engine.workspace.openDocument host file = .ok opened
  declared : other ∈ opened.hints engine.settings.lookahead
  side_eq : other.side = hint.side.opposite
  method_eq : other.method = hint.method
  /-- From an interface method one does not go to its own line. -/
  not_own : hint.side = .interface → ¬ (file = document ∧ other.line = hint.line)
  /-- From a method with a receiver one does not go to a line that starts a function. -/
  not_func : hint.side = .receiver →
    ∀ line, opened.line? other.line = some line → startsWithFunc line.chars = false

/-- The place of a counterpart, labelled with its own declaration. -/
def targetOf (file : String) (other : Hint) : Target :=
  { location := other.location file
    label := other.qualified
    detail := (other.location file).short }

variable {file : String} {opened : Document} {other : Hint}

namespace Counterpart

/-- A counterpart is labelled with the declaration that it was made from. -/
theorem targetAt?_eq (h : engine.Counterpart host document hint file opened other) :
    (engine.navigator host).targetAt? hint (other.location file) = some (targetOf file other) := by
  have hfetch : Library.fetch (engine.navigator host).openDocument
      (engine.navigator host).lookahead file =
        some ⟨opened, opened.outline engine.settings.lookahead⟩ :=
    Library.fetch_eq_some_iff.2 ⟨opened, h.readable, rfl⟩
  obtain ⟨text, rfl⟩ := Workspace.exists_text h.readable
  have hside := h.side_eq
  show targetFor? hint (Library.fetch _ _ file) (other.location file) = _
  rw [hfetch, targetFor?]
  cases hhint : hint.side with
  | interface =>
    rw [hhint] at hside
    obtain ⟨method, rfl, haround⟩ := Document.exists_receiverMethodAt? h.declared hside
    show some (implementationTarget _ _ _) = some _
    have hstart : ((Hint.ofReceiverMethod method).location file).start.line =
        (Hint.ofReceiverMethod method).line := rfl
    simp only [implementationTarget, Option.bind_some, hstart, haround]
    rfl
  | receiver =>
    rw [hhint] at hside
    obtain ⟨interface, method, line, rfl, hinterface, hfind, hline⟩ :=
      Document.exists_interfaceAt? h.declared hside
    refine interfaceTarget?_eq_some_iff.2 ⟨_, line, interface, rfl, hline,
      h.not_func hhint line hline, hinterface, ?_⟩
    have hstart : ((Hint.ofSignature interface.name method).location file).start.line =
        (Hint.ofSignature interface.name method).line := rfl
    simp only [hstart, hfind]
    rfl

/-- A counterpart is kept. -/
theorem admits (h : engine.Counterpart host document hint file opened other) :
    (engine.navigator host).Admits document hint (other.location file) := by
  refine Navigator.admits_iff.2 ⟨?_, _, h.targetAt?_eq⟩
  rw [Hint.isOwnPlace]
  cases hhint : hint.side with
  | interface =>
    have hown := h.not_own hhint
    simpa [Hint.location, Hint.position] using hown
  | receiver => rfl

end Counterpart

/-- The locations of the answer that are kept are the places of the counterparts. -/
theorem mem_and_admits_iff {location : Location} :
    location ∈ (Lookup.ByName.fileNames host engine.settings.workspace
        engine.settings.includeTests).flatMap
        (Lookup.ByName.counterpartsIn host engine.workspace engine.settings.lookahead hint) ∧
      (engine.navigator host).Admits document hint location ↔
    ∃ file opened other, engine.Counterpart host document hint file opened other ∧
      location = other.location file := by
  simp only [List.mem_flatMap, Lookup.ByName.mem_counterpartsIn_iff]
  constructor
  · rintro ⟨⟨file, hfile, opened, hopen, other, hother, hcounterpart, rfl⟩, hadmits⟩
    simp only [Hint.isCounterpart, Bool.and_eq_true, beq_iff_eq] at hcounterpart
    refine ⟨file, opened, other,
      ⟨hfile, hopen, hother, hcounterpart.1, hcounterpart.2, fun hhint => ?_, ?_⟩, rfl⟩
    · rw [Navigator.Admits, hhint] at hadmits
      exact hadmits
    · intro hhint line hline
      rw [Navigator.Admits, hhint] at hadmits
      obtain ⟨again, first, hagain, hfirst, hfunc, _⟩ := hadmits
      obtain rfl := Except.ok.inj (hopen.symm.trans hagain)
      obtain rfl := Option.some.inj (hline.symm.trans hfirst)
      exact hfunc
  · rintro ⟨file, opened, other, h, rfl⟩
    refine ⟨⟨file, h.listed, opened, h.readable, other, h.declared, ?_, rfl⟩, h.admits⟩
    simp [Hint.isCounterpart, h.side_eq, h.method_eq]

/-! ## Names of documents -/

/-- The file of a document is listed under the name of the document only. -/
def ListsUnderName (engine : Engine) (host : Host) (document : String) : Prop :=
  ∀ file opened, file ∈ Lookup.ByName.fileNames host engine.settings.workspace
      engine.settings.includeTests →
    engine.workspace.openDocument host file = .ok opened →
    host.locate (Path.ofText file) = host.locate (Path.ofText document) → file = document

/-- The name of a document that shows an absolute path spells the path of the document. -/
theorem resolve_display (engine : Engine) (names : List Name) :
    engine.workspace.resolve (Path.absolute names).display = (Path.absolute names).shown :=
  Path.join_of_isAbsolute (Path.isAbsolute_shown (Path.isAbsolute_absolute names)) _

/-- A document that can be read under the text that shows an absolute path has this text as its
absolute path. -/
theorem exists_place_of_openDocument {names : List Name}
    (h : engine.workspace.openDocument host (Path.absolute names).display = .ok opened) :
    ∃ place, host.locate (Path.absolute names).shown = .ok place ∧
      (Path.absolute names).shown = Path.absolute place := by
  unfold Workspace.openDocument at h
  rw [resolve_display] at h
  cases hread : host.readText (Path.absolute names).shown with
  | error fault => simp [hread] at h
  | ok text =>
    obtain ⟨place, hplace⟩ := Host.exists_locate_of_readText hread
    exact ⟨place, hplace, (Host.locate_eq_ok_iff.1 hplace).2.shown_absolute⟩

/-- An engine is made for the canonical path of its workspace. -/
theorem canonical_of_make {settings : Settings} (h : Engine.make host settings = .ok engine) :
    host.canonical settings.workspace = .ok engine.settings.workspace := by
  unfold make at h
  cases hcanonical : host.canonical settings.workspace with
  | error fault => simp [hcanonical] at h
  | ok workspace =>
    simp only [hcanonical, Except.ok.injEq] at h
    rw [← h]

/-- The name of a document shows its canonical path. -/
theorem documentId_eq_ok_iff {path id : String} :
    engine.documentId host path = .ok id ↔
      ∃ canonical, host.canonical (engine.workspace.resolve path) = .ok canonical ∧
        canonical.display = id := by
  unfold documentId
  cases hcanonical : host.canonical (engine.workspace.resolve path) <;> simp [hcanonical]

/-- A listed file of an engine that was made has an absolute path of names. -/
theorem exists_names_of_listed {settings : Settings}
    (hmade : Engine.make host settings = .ok engine) {path : Path} {includeTests : Bool}
    (hpath : path ∈ goFiles host engine.settings.workspace includeTests) :
    ∃ names, path = Path.absolute names := by
  obtain ⟨root, hroot⟩ := Host.exists_names_of_canonical (canonical_of_make hmade)
  rw [hroot] at hpath
  exact exists_names_of_mem_goFiles hpath

/-- An engine that was made for its workspace lists the file of a document under the name of the
document only. -/
theorem listsUnderName {settings : Settings} (hmade : Engine.make host settings = .ok engine)
    {path : String} (hid : engine.documentId host path = .ok document)
    (hopen : engine.workspace.openDocument host document = .ok opened) :
    engine.ListsUnderName host document := by
  obtain ⟨canonical, hcanonical, rfl⟩ := documentId_eq_ok_iff.1 hid
  obtain ⟨names, rfl⟩ := Host.exists_names_of_canonical hcanonical
  intro file reopened hfile hreadable hsame
  obtain ⟨listed, hlisted, rfl⟩ := List.mem_map.1 hfile
  obtain ⟨others, rfl⟩ := exists_names_of_listed hmade hlisted
  obtain ⟨place, hplace, hshown⟩ := exists_place_of_openDocument hopen
  obtain ⟨elsewhere, helsewhere, hshown'⟩ := exists_place_of_openDocument hreadable
  have heq : elsewhere = place :=
    Except.ok.inj (helsewhere.symm.trans (hsame.trans hplace))
  exact Path.ofText_injective (hshown'.trans (heq ▸ hshown.symm))

/-- Navigation by name is exact.  A request that finds a hint is answered with the places of
its counterparts, each once and in order, and each is labelled with its own declaration.  The
name of the document stands for its file: no other name of a listed file leads there. -/
theorem navigate_counterparts {engine : Engine} {host : Host} {request : NavigateRequest}
    {document : String} {hint : Hint} (hname : engine.settings.oracle = .lexical)
    (hfound : engine.hintFor host request = .ok (document, hint)) :
    (∃ outcome, engine.navigate host request = .ok { hint := hint, outcome := outcome } ∧
      outcome.Enumerates (fun location => ∃ file opened other,
        engine.Counterpart host document hint file opened other ∧
          location = other.location file) ∧
      ∀ target, target ∈ outcome.targets ↔ ∃ file opened other,
        engine.Counterpart host document hint file opened other ∧
          target = targetOf file other) ∧
    ∀ settings, Engine.make host settings = .ok engine →
      engine.ListsUnderName host document := by
  obtain ⟨hid, source, hopen, hhint⟩ := exists_opened_of_hintFor hfound
  refine ⟨?_, fun settings hmade => listsUnderName hmade hid hopen⟩
  have hanswer : (engine.navigator host).lookup document hint.position = .ok
      ((Lookup.ByName.fileNames host engine.settings.workspace
          engine.settings.includeTests).flatMap
        (Lookup.ByName.counterpartsIn host engine.workspace engine.settings.lookahead hint)) := by
    show engine.lookup host document hint.position = _
    rw [lookup, hname]
    exact Lookup.ByName.lookup_position hopen hhint
  refine ⟨_, navigate_of_hintFor hfound, ?_⟩
  rw [Navigator.activate, hanswer]
  constructor
  · have henumerates := @Navigator.enumerates_resolve (engine.navigator host) document hint
      ((Lookup.ByName.fileNames host engine.settings.workspace
          engine.settings.includeTests).flatMap
        (Lookup.ByName.counterpartsIn host engine.workspace engine.settings.lookahead hint))
    simpa only [mem_and_admits_iff] using henumerates
  · intro target
    rw [Navigator.targets_resolve, Navigator.mem_targets_iff]
    constructor
    · rintro ⟨hmem, hadmits, htarget⟩
      obtain ⟨file, opened, other, h, hlocation⟩ := mem_and_admits_iff.1 ⟨hmem, hadmits⟩
      rw [hlocation, h.targetAt?_eq] at htarget
      exact ⟨file, opened, other, h, (Option.some.inj htarget).symm⟩
    · rintro ⟨file, opened, other, h, rfl⟩
      have hkept := mem_and_admits_iff.2 ⟨file, opened, other, h, rfl⟩
      exact ⟨hkept.1, hkept.2, h.targetAt?_eq⟩

/-- The text of an interface with one method. -/
def shapeText : String :=
  "type Shape interface \x7b\n\tArea() float64\n\x7d\n"

/-- The text of a type with that method. -/
def circleText : String :=
  "func (c Circle) Area() float64 \x7b\n\treturn 1\n\x7d\n"

/-- The name of the file with the interface. -/
def shapeName : Name :=
  ⟨Path.ofText "shape.go", by decide⟩

/-- The name of the file with the type. -/
def circleName : Name :=
  ⟨Path.ofText "circle.go", by decide⟩

/-- The files of a workspace with both texts. -/
def shapesFiles : List (Name × Node) :=
  [(shapeName, .file shapeText.toUTF8.toList),
    (circleName, .file circleText.toUTF8.toList)]

/-- A machine with that workspace. -/
def shapesHost : Host where
  root := .directory [(workspaceName, .directory shapesFiles)]
  isDirectory := rfl
  isRegular := by decide
  workingDirectory := []
  programs _ := none

/-- An engine for the workspace. -/
def shapesEngine : Engine :=
  { settings := { workspace := Path.ofText "/w" } }

theorem mem_goFiles_shapesHost_iff {path : Path} :
    path ∈ goFiles shapesHost (Path.ofText "/w") true ↔
      path = Path.ofText "/w/shape.go" ∨ path = Path.ofText "/w/circle.go" := by
  have htop : shapesHost.node (Path.ofText "/w") = .ok (.directory shapesFiles) := by rfl
  have hfiles : (Node.directory shapesFiles).filesBelow =
      [[shapeName], [circleName]] := by
    decide +kernel
  rw [mem_goFiles_iff]
  constructor
  · rintro ⟨top, names, hnode, hnames, _, _, rfl⟩
    obtain rfl := Except.ok.inj (htop.symm.trans hnode)
    rw [hfiles] at hnames
    rcases List.mem_pair.1 hnames with rfl | rfl
    · exact .inl (by decide)
    · exact .inr (by decide)
  · rintro (rfl | rfl)
    · exact ⟨_, [shapeName], htop, by decide +kernel,
        by decide +kernel, by decide +kernel, by decide⟩
    · exact ⟨_, [circleName], htop, by decide +kernel,
        by decide +kernel, by decide +kernel, by decide⟩

/-- From the interface to the method that implements it. -/
theorem navigate_counterparts_shapes :
    (∃ outcome, shapesEngine.navigate shapesHost ⟨"shape.go", 1, none⟩ =
        .ok ⟨⟨1, 1, 5, "Area", .interface, "Shape"⟩, outcome⟩ ∧
      targetOf "/w/circle.go" ⟨0, 16, 20, "Area", .receiver, "Circle"⟩ ∈ outcome.targets) ∧
    shapesEngine.ListsUnderName shapesHost "/w/shape.go" := by
  have hfound : shapesEngine.hintFor shapesHost ⟨"shape.go", 1, none⟩ =
      .ok ("/w/shape.go", ⟨1, 1, 5, "Area", .interface, "Shape"⟩) := by decide +kernel
  have hmade : Engine.make shapesHost shapesEngine.settings = .ok shapesEngine := by
    decide +kernel
  obtain ⟨⟨outcome, hnavigate, _, htargets⟩, hnames⟩ := navigate_counterparts rfl hfound
  have hcounterpart : shapesEngine.Counterpart shapesHost "/w/shape.go"
      ⟨1, 1, 5, "Area", .interface, "Shape"⟩ "/w/circle.go" (.ofText circleText)
      ⟨0, 16, 20, "Area", .receiver, "Circle"⟩ := by
    refine ⟨?_, ?_, ?_, rfl, rfl, ?_, ?_⟩
    · exact List.mem_map.2 ⟨_, mem_goFiles_shapesHost_iff.2 (.inr rfl), Path.display_ofText _⟩
    · decide +kernel
    · decide +kernel
    · exact fun _ hown => absurd hown.1 (by decide)
    · exact fun hside => absurd hside (by decide)
  exact ⟨⟨outcome, hnavigate, (htargets _).2 ⟨_, _, _, hcounterpart, rfl⟩⟩, hnames _ hmade⟩

end Engine

end Wayfinder
