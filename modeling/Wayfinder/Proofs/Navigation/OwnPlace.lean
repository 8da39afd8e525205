import Wayfinder.Proofs.Navigation.ByName

/-!
# The place one is already at

From an interface method one should not be sent back to its own line.  What is filtered out are
locations under the canonical path of the document; a location that names the same file in
another way is kept.

* `Navigator.mem_targets_resolve_iff`: what is offered for an interface method is the whole
  answer but for its own line under that path.
* `Engine.offersOwnPlace_iff`: so the own place is offered exactly if the answer has it under
  another name.
* `Engine.not_renamed_of_lexical`: lookup by name has no other name for a file.  An answer of
  the tool can have one.
-/

namespace Wayfinder

/-- Both paths lead to the same place in the tree. -/
def Host.SameFile (host : Host) (path other : Path) : Prop :=
  ∃ names, host.locate path = .ok names ∧ host.locate other = .ok names

namespace Navigator

variable {navigator : Navigator} {document : String} {hint : Hint} {location : Location}
  {found : Except Failure (List Location)}

/-- What is offered for an interface method is what the lookup has found, but for its own line
under the name of its document. -/
theorem mem_targets_resolve_iff (hside : hint.side = .interface) :
    location ∈ (navigator.resolve document hint found).targets.map Target.location ↔
      ∃ locations, found = .ok locations ∧ location ∈ locations ∧
        ¬ (location.document = document ∧ location.start.line = hint.line) := by
  cases found with
  | error failure => simp [resolve, Outcome.targets]
  | ok locations =>
    rw [targets_resolve, mem_map_targets_iff, Admits, hside]
    simp

end Navigator

namespace Engine

variable {engine : Engine} {host : Host} {request : NavigateRequest} {document : String}
  {hint : Hint}

/-- One of the places that are offered is the line of the hint, however its file is named. -/
def OffersOwnPlace (engine : Engine) (host : Host) (document : String) (hint : Hint)
    (outcome : Outcome) : Prop :=
  ∃ target ∈ outcome.targets,
    host.SameFile (engine.workspace.resolve target.location.document) (Path.ofText document) ∧
      target.location.start.line = hint.line

/-- A location is the line of the hint, but its file has another name than the document. -/
structure Renamed (engine : Engine) (host : Host) (document : String) (hint : Hint)
    (location : Location) : Prop where
  name_ne : location.document ≠ document
  same : host.SameFile (engine.workspace.resolve location.document) (Path.ofText document)
  line_eq : location.start.line = hint.line

/-- The own place is offered exactly if the answer has it under another name. -/
theorem offersOwnPlace_iff (hside : hint.side = .interface) :
    engine.OffersOwnPlace host document hint ((engine.navigator host).activate document hint) ↔
      ∃ locations, engine.lookup host document hint.position = .ok locations ∧
        ∃ location ∈ locations, engine.Renamed host document hint location := by
  have hmem := fun location =>
    @Navigator.mem_targets_resolve_iff (engine.navigator host) document hint location
      (engine.lookup host document hint.position) hside
  unfold OffersOwnPlace
  constructor
  · rintro ⟨target, htarget, hsame, hline⟩
    obtain ⟨locations, hfound, hlocation, hown⟩ :=
      (hmem target.location).1 (List.mem_map_of_mem htarget)
    exact ⟨locations, hfound, target.location, hlocation,
      fun hname => hown ⟨hname, hline⟩, hsame, hline⟩
  · rintro ⟨locations, hfound, location, hlocation, hrenamed⟩
    obtain ⟨target, htarget, rfl⟩ := List.mem_map.1 ((hmem location).2
      ⟨locations, hfound, hlocation, fun hown => hrenamed.name_ne hown.1⟩)
    exact ⟨target, htarget, hrenamed.same, hrenamed.line_eq⟩

/-- Lookup by name answers with the names of listed files, and a listed file has no second
name. -/
theorem not_renamed_of_lexical {settings : Settings}
    (hmade : Engine.make host settings = .ok engine)
    (hfound : engine.hintFor host request = .ok (document, hint))
    (hlexical : engine.settings.oracle = .lexical) {locations : List Location}
    (hanswer : engine.lookup host document hint.position = .ok locations) {location : Location}
    (hlocation : location ∈ locations) : ¬ engine.Renamed host document hint location := by
  obtain ⟨hid, opened, hopen, hhint⟩ := exists_opened_of_hintFor hfound
  have hlists := listsUnderName hmade hid hopen
  rw [lookup, hlexical] at hanswer
  obtain rfl := Except.ok.inj ((Lookup.ByName.lookup_position hopen hhint).symm.trans hanswer)
  obtain ⟨file, hfile, hcounterpart⟩ := List.mem_flatMap.1 hlocation
  obtain ⟨reopened, hreadable, other, _, _, rfl⟩ :=
    Lookup.ByName.mem_counterpartsIn_iff.1 hcounterpart
  intro hrenamed
  obtain ⟨reached, hthere, hhere⟩ := hrenamed.same
  have hresolve : engine.workspace.resolve file = Path.ofText file := by
    obtain ⟨path, hpath, rfl⟩ := List.mem_map.1 hfile
    obtain ⟨names, rfl⟩ := exists_names_of_listed hmade hpath
    exact resolve_display engine names
  have hthere : host.locate (Path.ofText file) = .ok reached := by
    rw [← hresolve]
    exact hthere
  exact hrenamed.name_ne (hlists file reopened hfile hreadable (hthere.trans hhere.symm))

/-- From an interface method one is never sent to its own line under the canonical path of its
document.  One is sent there under another name exactly if the tool is asked and answers with
such a name; lookup by name never does. -/
theorem own_place_offered_iff_renamed {settings : Settings}
    (hmade : Engine.make host settings = .ok engine)
    (hfound : engine.hintFor host request = .ok (document, hint))
    (hside : hint.side = .interface) :
    ∃ outcome, engine.navigate host request = .ok { hint := hint, outcome := outcome } ∧
      (∀ target ∈ outcome.targets,
        ¬ (target.location.document = document ∧ target.location.start.line = hint.line)) ∧
      (engine.OffersOwnPlace host document hint outcome ↔
        engine.settings.oracle = .gopls ∧
          ∃ locations, Lookup.Gopls.lookup host engine.settings.workspace engine.settings.gopls
              document hint.position = .ok locations ∧
            ∃ location ∈ locations, engine.Renamed host document hint location) := by
  refine ⟨_, navigate_of_hintFor hfound, ?_, ?_⟩
  · intro target htarget
    obtain ⟨_, _, _, hown⟩ :=
      (Navigator.mem_targets_resolve_iff hside).1 (List.mem_map_of_mem htarget)
    exact hown
  · rw [offersOwnPlace_iff hside]
    cases horacle : engine.settings.oracle with
    | gopls => simp [lookup, horacle]
    | lexical =>
      have hnone : ¬ ∃ locations, engine.lookup host document hint.position = .ok locations ∧
          ∃ location ∈ locations, engine.Renamed host document hint location := by
        rintro ⟨locations, hanswer, location, hlocation, hrenamed⟩
        exact not_renamed_of_lexical hmade hfound horacle hanswer hlocation hrenamed
      simpa using hnone

/-- The machine with the two shapes, and a tool that always gives one answer. -/
def answeringHost (answer : String) : Host :=
  { shapesHost with
    programs := fun name =>
      if name = Path.ofText "gopls" then some fun _ => ⟨true, answer.toUTF8.toList, []⟩
      else none }

/-- An engine for their workspace that asks the tool. -/
def askingEngine : Engine :=
  { settings := { workspace := Path.ofText "/w", oracle := .gopls } }

/-- An answer under canonical paths: the own line, and the method that implements it. -/
def canonicalAnswer : String :=
  "/w/shape.go:2:2-6\n/w/circle.go:1:17-21\n"

/-- With an answer under canonical paths the own place is not offered. -/
theorem own_place_offered_iff_renamed_canonical :
    ∃ outcome, askingEngine.navigate (answeringHost canonicalAnswer) ⟨"shape.go", 1, none⟩ =
        .ok ⟨⟨1, 1, 5, "Area", .interface, "Shape"⟩, outcome⟩ ∧
      ¬ askingEngine.OffersOwnPlace (answeringHost canonicalAnswer) "/w/shape.go"
        ⟨1, 1, 5, "Area", .interface, "Shape"⟩ outcome := by
  have hmade : Engine.make (answeringHost canonicalAnswer) askingEngine.settings =
      .ok askingEngine := by decide +kernel
  have hfound : askingEngine.hintFor (answeringHost canonicalAnswer) ⟨"shape.go", 1, none⟩ =
      .ok ("/w/shape.go", ⟨1, 1, 5, "Area", .interface, "Shape"⟩) := by decide +kernel
  have hanswer : Lookup.Gopls.lookup (answeringHost canonicalAnswer) (Path.ofText "/w")
      (Path.ofText "gopls") "/w/shape.go" ⟨1, 1⟩ =
        .ok [⟨"/w/shape.go", ⟨1, 1⟩, ⟨1, 5⟩⟩, ⟨"/w/circle.go", ⟨0, 16⟩, ⟨0, 20⟩⟩] := by
    decide +kernel
  obtain ⟨outcome, hnavigate, _, hoffers⟩ := own_place_offered_iff_renamed hmade hfound rfl
  refine ⟨outcome, hnavigate, fun hown => ?_⟩
  obtain ⟨_, locations, hlookup, location, hlocation, hrenamed⟩ := hoffers.1 hown
  obtain rfl := Except.ok.inj (hanswer.symm.trans hlookup)
  rcases List.mem_pair.1 hlocation with rfl | rfl
  · exact hrenamed.name_ne rfl
  · exact absurd hrenamed.line_eq (by decide)

/-- With an answer under a path relative to the workspace it is offered. -/
theorem own_place_offered_relative :
    ∃ outcome, askingEngine.navigate (answeringHost "shape.go:2:2-6\n") ⟨"shape.go", 1, none⟩ =
        .ok ⟨⟨1, 1, 5, "Area", .interface, "Shape"⟩, outcome⟩ ∧
      askingEngine.OffersOwnPlace (answeringHost "shape.go:2:2-6\n") "/w/shape.go"
        ⟨1, 1, 5, "Area", .interface, "Shape"⟩ outcome := by
  have hfound : askingEngine.hintFor (answeringHost "shape.go:2:2-6\n") ⟨"shape.go", 1, none⟩ =
      .ok ("/w/shape.go", ⟨1, 1, 5, "Area", .interface, "Shape"⟩) := by decide +kernel
  have hanswer : askingEngine.lookup (answeringHost "shape.go:2:2-6\n") "/w/shape.go" ⟨1, 1⟩ =
      .ok [⟨"shape.go", ⟨1, 1⟩, ⟨1, 5⟩⟩] := by decide +kernel
  have hrenamed : askingEngine.Renamed (answeringHost "shape.go:2:2-6\n") "/w/shape.go"
      ⟨1, 1, 5, "Area", .interface, "Shape"⟩ ⟨"shape.go", ⟨1, 1⟩, ⟨1, 5⟩⟩ :=
    ⟨by decide, ⟨[workspaceName, shapeName],
      by decide +kernel, by decide +kernel⟩, rfl⟩
  refine ⟨_, navigate_of_hintFor hfound, ?_⟩
  exact (offersOwnPlace_iff rfl).2 ⟨_, hanswer, _, List.mem_singleton_self _, hrenamed⟩

end Engine

end Wayfinder
