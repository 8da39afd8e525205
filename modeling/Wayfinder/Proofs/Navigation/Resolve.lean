import Mathlib.Logic.ExistsUnique
import Wayfinder.Proofs.Navigation.Order

/-!
# What an answer resolves to

`Navigator.resolve` turns the locations of an answer into an outcome.  The outcome depends
only on which locations there are: neither on their order, nor on repetitions, nor on the
library that is filled on the way.

* `Library.Faithful`: what a library holds is what opening and scanning would give, so a
  request to it is as good as a fresh scan (`Library.Faithful.request_eq`).
* `Navigator.targetAt?` is the target of a location after a fresh scan, and
  `Navigator.mem_targets_iff` says which targets there are.
* `Navigator.Admits` says, without targets, which locations are kept.
* `Outcome.Enumerates`: an outcome offers a set of locations, each once and in order.
-/

namespace Wayfinder

/-! ## Libraries -/

namespace Library

variable {openDocument : String → Except Failure Document} {lookahead : Nat} {library : Library}

/-- Every document in the library is what opening and scanning it gives. -/
def Faithful (openDocument : String → Except Failure Document) (lookahead : Nat)
    (library : Library) : Prop :=
  ∀ entry ∈ library.volumes, entry.2 = fetch openDocument lookahead entry.1

theorem faithful_empty : Faithful openDocument lookahead empty := by
  simp [Faithful, empty]

/-- A request gives what opening and scanning the document gives. -/
theorem Faithful.request_eq (h : Faithful openDocument lookahead library) (name : String) :
    (library.request openDocument lookahead name).1 = fetch openDocument lookahead name := by
  unfold request
  cases hlookup : library.volumes.lookup name with
  | none => rfl
  | some volume =>
    obtain ⟨front, back, hvolumes, _⟩ := List.lookup_eq_some_iff.1 hlookup
    exact h (name, volume) (by simp [hvolumes])

/-- A request keeps the library faithful. -/
theorem Faithful.request (h : Faithful openDocument lookahead library) (name : String) :
    Faithful openDocument lookahead (library.request openDocument lookahead name).2 := by
  unfold Library.request
  cases library.volumes.lookup name with
  | some volume => exact h
  | none =>
    intro entry hentry
    rcases List.mem_cons.1 hentry with rfl | hold
    · rfl
    · exact h entry hold

end Library

/-! ## Targets of locations -/

/-- When a location gives an interface method, and under which label. -/
theorem interfaceTarget?_eq_some_iff {volume : Option Volume} {method : String}
    {location : Location} {target : Target} :
    interfaceTarget? volume method location = some target ↔
      ∃ opened line interface,
        volume = some opened ∧
        opened.document.line? location.start.line = some line ∧
        startsWithFunc line.chars = false ∧
        opened.outline.interfaceAt? location.start.line = some interface ∧
        target =
          { location := location
            label := interface.name ++ "." ++
              ((interface.methods.find? (·.line == location.start.line)).map
                Signature.name).getD method
            detail := location.short } := by
  unfold interfaceTarget?
  simp only [Option.bind_eq_bind, Option.bind_eq_some_iff]
  constructor
  · rintro ⟨opened, hvolume, line, hline, h⟩
    split at h
    · cases h
    · rename_i hfunc
      obtain ⟨interface, hinterface, h⟩ := Option.bind_eq_some_iff.1 h
      obtain rfl := Option.some.inj h
      refine ⟨opened, line, interface, hvolume, hline, by simpa using hfunc, hinterface, ?_⟩
      cases interface.methods.find? (·.line == location.start.line) <;> rfl
  · rintro ⟨opened, line, interface, hvolume, hline, hfunc, hinterface, rfl⟩
    refine ⟨opened, hvolume, line, hline, ?_⟩
    rw [if_neg (by simp [hfunc])]
    refine Option.bind_eq_some_iff.2 ⟨interface, hinterface, ?_⟩
    cases interface.methods.find? (·.line == location.start.line) <;> rfl

/-- A target stands at the location that gives it. -/
theorem location_of_targetFor? {hint : Hint} {volume : Option Volume} {location : Location}
    {target : Target} (h : targetFor? hint volume location = some target) :
    target.location = location := by
  unfold targetFor? at h
  cases hside : hint.side with
  | interface =>
    rw [hside] at h
    obtain rfl := Option.some.inj h
    rfl
  | receiver =>
    rw [hside] at h
    obtain ⟨_, _, _, _, _, _, _, rfl⟩ := interfaceTarget?_eq_some_iff.1 h
    rfl

theorem Library.fetch_eq_some_iff {openDocument : String → Except Failure Document}
    {lookahead : Nat} {name : String} {volume : Volume} :
    fetch openDocument lookahead name = some volume ↔
      ∃ document, openDocument name = .ok document ∧
        volume = ⟨document, document.outline lookahead⟩ := by
  unfold fetch
  cases openDocument name with
  | error failure => simp
  | ok document => simp [eq_comm]

namespace Navigator

/-- The target that a location gives when its document is opened and scanned afresh. -/
def targetAt? (navigator : Navigator) (hint : Hint) (location : Location) : Option Target :=
  targetFor? hint
    (Library.fetch navigator.openDocument navigator.lookahead location.document) location

/-- The locations that are kept.  From an interface method one goes anywhere but to its own
line; from a method with a receiver to lines of interfaces that start no function. -/
def Admits (navigator : Navigator) (document : String) (hint : Hint) (location : Location) :
    Prop :=
  match hint.side with
  | .interface => ¬ (location.document = document ∧ location.start.line = hint.line)
  | .receiver =>
      ∃ opened line,
        navigator.openDocument location.document = .ok opened ∧
        opened.line? location.start.line = some line ∧
        startsWithFunc line.chars = false ∧
        ∃ interface ∈ opened.interfaces navigator.lookahead,
          interface.contains location.start.line = true

variable {navigator : Navigator} {document : String} {hint : Hint} {location : Location}

/-- Collecting through a faithful library is scanning afresh for every location. -/
theorem collect_eq {library : Library} (locations : List Location)
    (h : library.Faithful navigator.openDocument navigator.lookahead) :
    navigator.collect hint library locations = locations.filterMap (navigator.targetAt? hint) := by
  induction locations generalizing library with
  | nil => rfl
  | cons location more ih =>
    have hvolume := h.request_eq location.document
    have hrest := ih (h.request location.document)
    unfold collect
    simp only [hvolume, hrest, List.filterMap_cons]
    unfold targetAt?
    cases targetFor? hint (Library.fetch _ _ location.document) location <;> rfl

/-- The locations that are kept are those that give a target and are not the hint's own
place. -/
theorem admits_iff :
    navigator.Admits document hint location ↔
      hint.isOwnPlace document location = false ∧
        ∃ target, navigator.targetAt? hint location = some target := by
  unfold Admits Hint.isOwnPlace targetAt? targetFor?
  cases hside : hint.side with
  | interface => simp
  | receiver =>
    have hown : (Side.receiver == Side.interface) = false := rfl
    simp only [hown, Bool.false_and, true_and, interfaceTarget?_eq_some_iff,
      Library.fetch_eq_some_iff]
    constructor
    · rintro ⟨opened, line, hopen, hline, hfunc, interface, hinterface, hcontains⟩
      have hsome : ((opened.outline navigator.lookahead).interfaceAt? location.start.line).isSome :=
        List.find?_isSome.2 ⟨interface, hinterface, hcontains⟩
      obtain ⟨found, hfound⟩ := Option.isSome_iff_exists.1 hsome
      exact ⟨_, _, line, found, ⟨opened, hopen, rfl⟩, hline, hfunc, hfound, rfl⟩
    · rintro ⟨_, _, line, found, ⟨opened, hopen, rfl⟩, hline, hfunc, hfound, rfl⟩
      have hfound : (opened.interfaces navigator.lookahead).find?
          (·.contains location.start.line) = some found := hfound
      have hcontains : found.contains location.start.line = true := by
        simpa using List.find?_some hfound
      exact ⟨opened, line, hopen, hline, hfunc, found, List.mem_of_find?_eq_some hfound, hcontains⟩

theorem targets_ascending (locations : List Location) :
    Target.Ascending (navigator.targets document hint locations) :=
  arrange_ascending _

/-- The targets of some locations are those that the kept ones give. -/
theorem mem_targets_iff {locations : List Location} {target : Target} :
    target ∈ navigator.targets document hint locations ↔
      target.location ∈ locations ∧ navigator.Admits document hint target.location ∧
        navigator.targetAt? hint target.location = some target := by
  have hcollected : ∀ found, found ∈ navigator.collect hint .empty
        (locations.filter fun location => !hint.isOwnPlace document location) ↔
      found.location ∈ locations ∧ navigator.Admits document hint found.location ∧
        navigator.targetAt? hint found.location = some found := by
    intro found
    rw [collect_eq _ Library.faithful_empty, List.mem_filterMap]
    simp only [List.mem_filter, Bool.not_eq_true', admits_iff]
    constructor
    · rintro ⟨location, ⟨hmem, hown⟩, hfound⟩
      obtain rfl := location_of_targetFor? hfound
      exact ⟨hmem, ⟨hown, found, hfound⟩, hfound⟩
    · rintro ⟨hmem, ⟨hown, _⟩, hfound⟩
      exact ⟨found.location, ⟨hmem, hown⟩, hfound⟩
  constructor
  · intro h
    exact (hcollected target).1 (mem_of_mem_arrange h)
  · intro h
    obtain ⟨kept, hkept, hlocation⟩ := exists_mem_arrange ((hcollected target).2 h)
    -- The target that is kept at the place is given by the place, hence this one.
    obtain ⟨_, _, hgiven⟩ := (hcollected kept).1 (mem_of_mem_arrange hkept)
    rw [hlocation, h.2.2] at hgiven
    exact Option.some.inj hgiven ▸ hkept

/-- The places of the targets are the locations that are kept. -/
theorem mem_map_targets_iff {locations : List Location} :
    location ∈ (navigator.targets document hint locations).map Target.location ↔
      location ∈ locations ∧ navigator.Admits document hint location := by
  rw [List.mem_map]
  constructor
  · rintro ⟨target, htarget, rfl⟩
    obtain ⟨hmem, hadmits, _⟩ := mem_targets_iff.1 htarget
    exact ⟨hmem, hadmits⟩
  · rintro ⟨hmem, hadmits⟩
    obtain ⟨_, target, htarget⟩ := admits_iff.1 hadmits
    obtain rfl := location_of_targetFor? htarget
    exact ⟨target, mem_targets_iff.2 ⟨hmem, hadmits, htarget⟩, rfl⟩

/-- Only the set of the locations matters. -/
theorem targets_congr {locations others : List Location}
    (h : ∀ location, location ∈ others ↔ location ∈ locations) :
    navigator.targets document hint others = navigator.targets document hint locations := by
  refine (targets_ascending others).eq_of_mem_iff (targets_ascending locations) fun target => ?_
  rw [mem_targets_iff, mem_targets_iff, h]

end Navigator

/-! ## Outcomes -/

/-- An outcome offers a set of locations: each once, in order, and by a notice, a jump or a
choice as there are none, one or more. -/
structure Outcome.Enumerates (outcome : Outcome) (offered : Location → Prop) : Prop where
  ascending : (outcome.targets.map Target.location).Pairwise Location.IsBefore
  mem_iff (location : Location) : location ∈ outcome.targets.map Target.location ↔ offered location
  notice_iff : (∃ message, outcome = .notice message) ↔ ¬ ∃ location, offered location
  jump_iff : (∃ target, outcome = .jump target) ↔ ∃! location, offered location
  pick_iff : (∃ targets, outcome = .pick targets) ↔ ∃ a b, offered a ∧ offered b ∧ a ≠ b

namespace Outcome

variable {offered : Location → Prop}

theorem enumerates_notice (message : String) (h : ¬ ∃ location, offered location) :
    (notice message).Enumerates offered where
  ascending := List.Pairwise.nil
  mem_iff location := by
    have hnot : ¬ offered location := fun hoffered => h ⟨location, hoffered⟩
    simp [targets, hnot]
  notice_iff := iff_of_true ⟨message, rfl⟩ h
  jump_iff := iff_of_false (by simp) fun hunique => h hunique.exists
  pick_iff := by
    have hnot : ¬ ∃ a b, offered a ∧ offered b ∧ a ≠ b := fun ⟨a, _, ha, _⟩ => h ⟨a, ha⟩
    exact iff_of_false (by simp) hnot

theorem enumerates_jump (target : Target)
    (h : ∀ location, offered location ↔ location = target.location) :
    (jump target).Enumerates offered where
  ascending := List.pairwise_singleton _ _
  mem_iff location := by simp [targets, h]
  notice_iff := by simp [h]
  jump_iff := by simp [h]
  pick_iff := by
    have hnot : ¬ ∃ a b, offered a ∧ offered b ∧ a ≠ b := by
      rintro ⟨a, b, ha, hb, hne⟩
      exact hne (((h a).1 ha).trans ((h b).1 hb).symm)
    exact iff_of_false (by simp) hnot

theorem enumerates_pick {first second : Target} {more : List Target}
    (hascending : Target.Ascending (first :: second :: more))
    (h : ∀ location, location ∈ (first :: second :: more).map Target.location ↔ offered location) :
    (pick (first :: second :: more)).Enumerates offered := by
  have hfirst : offered first.location := (h _).1 (by simp)
  have hsecond : offered second.location := (h _).1 (by simp)
  have hne : first.location ≠ second.location :=
    ((List.pairwise_cons.1 hascending).1 second List.mem_cons_self).ne
  refine ⟨List.pairwise_map.2 hascending, h, ?_, ?_, ?_⟩
  · exact iff_of_false (by simp) (not_not_intro ⟨_, hfirst⟩)
  · exact iff_of_false (by simp) fun hunique => hne (hunique.unique hfirst hsecond)
  · exact iff_of_true ⟨_, rfl⟩ ⟨_, _, hfirst, hsecond, hne⟩

end Outcome

namespace Navigator

variable {navigator : Navigator} {document : String} {hint : Hint} {locations : List Location}

theorem targets_resolve :
    (navigator.resolve document hint (.ok locations)).targets =
      navigator.targets document hint locations := by
  unfold resolve
  rcases htargets : navigator.targets document hint locations with _ | ⟨target, _ | ⟨other, more⟩⟩
  · simp only [htargets, Outcome.targets]
  · simp only [htargets, Outcome.targets]
  · simp only [htargets, Outcome.targets]

/-- The outcome offers the locations that are kept. -/
theorem enumerates_resolve :
    (navigator.resolve document hint (.ok locations)).Enumerates fun location =>
      location ∈ locations ∧ navigator.Admits document hint location := by
  have hascending := @targets_ascending navigator document hint locations
  have hmem := fun location =>
    @mem_map_targets_iff navigator document hint location locations
  unfold resolve
  rcases htargets : navigator.targets document hint locations with _ | ⟨target, _ | ⟨other, more⟩⟩
  all_goals rw [htargets] at hascending hmem
  · simp only [htargets]
    refine Outcome.enumerates_notice _ fun ⟨location, hlocation⟩ => ?_
    exact absurd ((hmem location).2 hlocation) (by simp)
  · simp only [htargets]
    refine Outcome.enumerates_jump target fun location => ?_
    rw [← hmem location]
    simp
  · simp only [htargets]
    exact Outcome.enumerates_pick hascending hmem

/-- Resolving an answer is an exact function of the set of its locations: the outcome offers
the locations that are kept, each labelled as a fresh scan of its document labels it, and
any answer with the same locations gives the same outcome. -/
theorem resolve_enumerates_admitted (navigator : Navigator) (document : String) (hint : Hint)
    (locations : List Location) :
    (navigator.resolve document hint (.ok locations)).Enumerates (fun location =>
        location ∈ locations ∧ navigator.Admits document hint location) ∧
      (∀ target ∈ (navigator.resolve document hint (.ok locations)).targets,
        navigator.targetAt? hint target.location = some target) ∧
      ∀ others : List Location, (∀ location, location ∈ others ↔ location ∈ locations) →
        navigator.resolve document hint (.ok others) =
          navigator.resolve document hint (.ok locations) := by
  refine ⟨enumerates_resolve, fun target htarget => ?_, fun others hothers => ?_⟩
  · rw [targets_resolve] at htarget
    exact (mem_targets_iff.1 htarget).2.2
  · unfold resolve
    simp only [targets_congr hothers]

/-- Two documents that declare the same interface, with a line in it that starts a function. -/
def twins : Navigator where
  openDocument name :=
    if name = "a.go" ∨ name = "b.go" then
      .ok (.ofText "type Shape interface \x7b\n\tArea() float64\n\tfunc Area()\n\x7d\n")
    else .error .nothingGiven
  lookup _ _ := .ok []
  lookahead := 3

/-- The place of a name of four characters behind a tab. -/
def nameAt (document : String) (line : Nat) : Location :=
  ⟨document, ⟨line, 1⟩, ⟨line, 5⟩⟩

/-- Of an answer with a line that starts a function and a document that cannot be opened, two
locations are kept, and another order with a repetition makes no difference. -/
theorem resolve_enumerates_admitted_twins :
    let hint : Hint := ⟨9, 5, 9, "Area", .receiver, "Circle"⟩
    let answer := [nameAt "b.go" 1, nameAt "a.go" 2, nameAt "c.go" 1, nameAt "a.go" 1]
    let others := [nameAt "a.go" 1, nameAt "b.go" 1, nameAt "b.go" 1, nameAt "c.go" 1,
      nameAt "a.go" 2]
    twins.resolve "d.go" hint (.ok others) = twins.resolve "d.go" hint (.ok answer) ∧
      ∃ targets, twins.resolve "d.go" hint (.ok answer) = .pick targets := by
  intro hint answer others
  have hothers : ∀ location, location ∈ others ↔ location ∈ answer := by
    intro location
    simp only [others, answer, List.mem_cons, List.not_mem_nil, or_false]
    tauto
  have hfirst : twins.targetAt? hint (nameAt "a.go" 1) =
      some ⟨nameAt "a.go" 1, "Shape.Area", "a.go:2"⟩ := by decide +kernel
  have hsecond : twins.targetAt? hint (nameAt "b.go" 1) =
      some ⟨nameAt "b.go" 1, "Shape.Area", "b.go:2"⟩ := by decide +kernel
  obtain ⟨henumerates, _, hcongr⟩ := resolve_enumerates_admitted twins "d.go" hint answer
  refine ⟨hcongr others hothers, henumerates.pick_iff.2 ⟨nameAt "a.go" 1, nameAt "b.go" 1,
    ⟨by decide, admits_iff.2 ⟨by decide, _, hfirst⟩⟩,
    ⟨by decide, admits_iff.2 ⟨by decide, _, hsecond⟩⟩, by decide⟩⟩

end Navigator

end Wayfinder
