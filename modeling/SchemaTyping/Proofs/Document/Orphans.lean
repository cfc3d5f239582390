import SchemaTyping.Proofs.Document.Loading
import SchemaTyping.Proofs.Document.Lockstep
import SchemaTyping.Proofs.Generation.Renaming

set_option autoImplicit false

/-! # Documents that are refused leave no trace

A refused document leaves instances behind that nothing points to, so the ids of later documents differ
from those in a loader that was never given it. The two loaders stay in step nevertheless: after each
refused document the ids that are still to come are matched anew (`resume`), which changes nothing for
those that are in use. -/

namespace SchemaTyping

variable {σ τ : InstanceId → InstanceId}

/-! ## Matching ids anew -/

/-- Ids that `r` has handed out go where they went, all others behind the instances of `s`. -/
def resume (σ : InstanceId → InstanceId) (r s : Registry) (id : InstanceId) : InstanceId :=
  if id.index < r.instances.length then σ id
  else ⟨s.instances.length + (id.index - r.instances.length)⟩

namespace Registry

variable {r s s' : Registry}

theorem resume_of_has {id : InstanceId} (h : r.Has id) : resume σ r s id = σ id := if_pos h

theorem mapValues_resume {t : Table InstanceId} (h : ∀ entry ∈ t, r.Has entry.2) :
    t.mapValues (resume σ r s) = t.mapValues σ :=
  List.map_congr_left fun entry hentry => congrArg (Prod.mk entry.1) (resume_of_has (h entry hentry))

/-- Instances that only the second registry has do not matter. -/
theorem InStep.resume (h : r.InStep σ s) (hr : r.Closed) (hext : s.Extends s') :
    r.InStep (resume σ r s') s' where
  entries := by rw [hext.entries, h.entries, mapValues_resume hr.entries]
  instance? := fun id hid => by
    obtain ⟨i, hi⟩ := hid.exists_instance?
    have hs := h.instance? id hid
    have hkept : s'.instance? (σ id) = s.instance? (σ id) := hext.instance?_eq (h.has hid)
    rw [resume_of_has hid, hkept, hs, hi, Option.map_some, Option.map_some,
      Instance.rename_congr fun id' hid' => (resume_of_has (hr.has_of_instance? hi id' hid')).symm]
  injective := fun id id' heq => by
    -- old ids go below the instances of `s'`, new ones do not
    have hold : ∀ old, r.Has old → (σ old).index < s'.instances.length := fun old hold =>
      Nat.lt_of_lt_of_le (h.has hold) hext.length_le
    unfold SchemaTyping.resume at heq
    split at heq <;> split at heq
    · exact h.injective _ _ heq
    · next hid _ =>
        have hlt := hold id hid
        rw [heq] at hlt
        exact absurd hlt (Nat.not_lt.2 (Nat.le_add_right _ _))
    · next _ hid' =>
        have hlt := hold id' hid'
        rw [← heq] at hlt
        exact absurd hlt (Nat.not_lt.2 (Nat.le_add_right _ _))
    · next hid hid' =>
        have hindex := congrArg InstanceId.index heq
        dsimp only at hindex
        exact congrArg InstanceId.mk (show id.index = id'.index by omega)
  next := fun k => by
    have hout : ¬ r.instances.length + k < r.instances.length := Nat.not_lt.2 (Nat.le_add_right _ _)
    simp [SchemaTyping.resume, hout]

end Registry

namespace Loader

variable {l m m' : Loader}

/-- A document that the second loader refuses leaves it in step with the first, which was not given
    it. -/
theorem InStep.resume (h : l.InStep σ m) (hl : l.Sound) (hkeeps : m.Keeps m') :
    l.InStep (SchemaTyping.resume σ l.registry m'.registry) m' where
  options := hkeeps.options.trans h.options
  registry := h.registry.resume hl.closed ⟨hkeeps.entries, hkeeps.arena⟩
  instances := by rw [hkeeps.instances, h.instances, Registry.mapValues_resume hl.instances]
  stagedSchemas := by rw [hkeeps.stagedSchemas, hl.stagedSchemas]; rfl
  stagedInstances := by rw [hkeeps.stagedInstances, hl.stagedInstances]; rfl

/-! ## Any number of documents -/

/-- Feed sources one after the other: what came of each, and the loader they lead to. -/
def feedAll (l : Loader) : List Source → List (Except DocumentError Unit) × Loader
  | [] => ([], l)
  | source :: rest =>
    let (outcome, next) := l.feed source
    let (outcomes, last) := next.feedAll rest
    (outcome :: outcomes, last)

/-- The sources that are not refused when they are fed one after the other. -/
def accepted (l : Loader) : List Source → List Source
  | [] => []
  | source :: rest =>
    match l.feed source with
    | (.ok (), next) => source :: next.accepted rest
    | (.error _, next) => next.accepted rest

theorem Reachable.feedAll (h : l.Reachable) (sources : List Source) : (l.feedAll sources).2.Reachable := by
  induction sources generalizing l with
  | nil => exact h
  | cons source rest ih => exact ih (h.feed source)

/-- The second loader is given all sources, the first only those that the second takes. -/
theorem InStep.feedAll (h : l.InStep σ m) (hl : l.Reachable) (hm : m.Reachable)
    (sources : List Source) :
    (∀ outcome ∈ (l.feedAll (m.accepted sources)).1, outcome = .ok ()) ∧
      ∃ τ, InStep τ (l.feedAll (m.accepted sources)).2 (m.feedAll sources).2 := by
  induction sources generalizing l m σ with
  | nil => exact ⟨fun _ h => absurd h List.not_mem_nil, σ, h⟩
  | cons source rest ih =>
      rcases hrun : m.feed source with ⟨outcome, m'⟩
      have hm' : m'.Reachable := by
        have := hm.feed source
        rwa [hrun] at this
      simp only [Loader.feedAll, accepted, hrun]
      cases outcome with
      -- a refused source is not fed to the first loader, which stays where it is
      | error e => exact ih (h.resume hl.sound (hm.sound.keeps_of_feed hrun)) hl hm'
      | ok =>
          obtain ⟨d, hdocument, hload⟩ := exists_document_of_feed hrun
          obtain ⟨l', hload, hstep⟩ := h.load hload
          have hfeed : l.feed source = (.ok (), l') :=
            (feed_of_document_eq_ok hdocument).trans hload
          have hl' : l'.Reachable := by
            have := hl.feed source
            rwa [hfeed] at this
          obtain ⟨hrest, hlast⟩ := ih hstep hl' hm'
          simp only [Loader.feedAll, hfeed]
          refine ⟨fun outcome houtcome => ?_, hlast⟩
          rcases List.mem_cons.1 houtcome with rfl | houtcome
          · rfl
          · exact hrest outcome houtcome

theorem InStep.start (options : Options) : InStep id { options } { options } where
  options := rfl
  registry := ⟨rfl, fun _ h => absurd h (Nat.not_lt_zero _), fun _ _ h => h, fun _ => rfl⟩
  instances := rfl
  stagedSchemas := rfl
  stagedInstances := rfl

/-- **Documents that are refused leave no trace.** When only the documents that a loader takes are fed to
    another one in the same order, it takes them all; the two registries then have the same names in the
    same order, and nothing that is generated from them differs under any options. -/
theorem generate_feedAll_accepted (options : Options) (sources : List Source) :
    let start : Loader := { options }
    let all := start.feedAll sources
    let again := start.feedAll (start.accepted sources)
    (∀ outcome ∈ again.1, outcome = .ok ()) ∧
      again.2.registry.entries.names = all.2.registry.entries.names ∧
      ∀ o, generate again.2.registry o = generate all.2.registry o := by
  have hstart := Reachable.start options
  obtain ⟨hok, τ, hstep⟩ := (InStep.start options).feedAll hstart hstart sources
  have hclosed := (hstart.feedAll ((({ options } : Loader)).accepted sources)).sound.closed
  refine ⟨hok, ?_, fun o => (generate_eq_of_mirrors hstep.registry.mirrors hclosed o).symm⟩
  rw [hstep.registry.entries, Table.names_mapValues]

end Loader

end SchemaTyping
