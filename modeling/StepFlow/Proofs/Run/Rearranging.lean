/-
  StepFlow.Proofs.Run.Rearranging — a run depends only on the executable part of its flow.

  Of the connections of a node the first that fits is followed, and of the nodes of one id the
  first counts; how these lists are mixed with the rest plays no part. Nor does what a run does
  not read of a node (`Node.Alike`): where it stands, what it is for, and the payload of other
  types than its own. A flow that is another one up to these rearranges it (`Flow.Rearranges`).

  Proved:
  (1) `Flow.Rearranges.agrees`: what is looked up in a flow is found alike in one that
      rearranges it.
  (2) `rearranged_flows_run_alike`: so both have the same runs, on one executor that hears the
      same and is left the same, whatever listens there.
-/

import StepFlow.Proofs.Run.Lockstep

namespace StepFlow

/-! ## Rearranged flows -/

/-- The second flow is the first one rearranged; its name and its description may be any. -/
structure Flow.Rearranges (f g : Flow) : Prop where
  id : g.id = f.id
  /-- The connections are permuted, those of one source not among themselves. -/
  connections : g.connections.Perm f.connections
  order : ∀ source, g.connections.filter (·.source == source) = f.connections.filter (·.source == source)
  /-- So are the nodes, but the first start node and the first of each id stay the first; each
      of them may be replaced by one that is alike. -/
  nodes : ∃ ns : List Node, ns.Perm f.nodes ∧ ns.find? (·.type == .start) = f.nodes.find? (·.type == .start) ∧
    (∀ id, ns.find? (·.id == id) = f.nodes.find? (·.id == id)) ∧ List.Forall₂ Node.Alike ns g.nodes

/-- What is found in a list is found alike in one that is alike. -/
theorem find?_alike {p : Node → Bool} (hp : ∀ n m : Node, n.Alike m → p m = p n) {ns ms : List Node}
    (h : List.Forall₂ Node.Alike ns ms) : Option.Rel Node.Alike (ns.find? p) (ms.find? p) := by
  induction h with
  | nil => exact .none
  | @cons n m ns ms hnm _ ih =>
    rw [List.find?_cons, List.find?_cons, hp n m hnm]
    cases p n with
    | true => exact .some hnm
    | false => exact ih

theorem next?_filter (f : Flow) (id : String) (port : Option String) :
    f.next? id port = (f.connections.filter (·.source == id)).find? fun c => port.isNone || c.sourcePort == port := by
  rw [List.find?_filter, Flow.next?]
  simp only [Bool.decide_and, Bool.decide_eq_true]

theorem Flow.Rearranges.agrees {f g : Flow} (h : f.Rearranges g) : f.Agrees g := by
  obtain ⟨ns, hperm, hstart, hids, halike⟩ := h.nodes
  refine ⟨h.id, ?_, ?_, fun id port => ?_, fun id => ?_⟩
  · rw [← halike.length_eq, hperm.length_eq]
  · have hfound := find?_alike (p := (·.type == .start)) (fun n m hnm => by rw [hnm.type]) halike
    rw [hstart] at hfound
    exact hfound
  · rw [next?_filter, next?_filter, h.order]
  · have hfound := find?_alike (p := (·.id == id)) (fun n m hnm => by rw [hnm.id]) halike
    rw [hids] at hfound
    exact hfound

namespace Run

/-! ## Runs -/

/-- Rearranged flows have the same runs, on one executor that is left the same by both. -/
theorem rearranged_flows_run_alike {q : Request} {g : Flow} (h : q.flow.Rearranges g) (x : Executor)
    (s : Surroundings) (k : Nat) :
    SameRun q { q with flow := g } x x s k ∧ (Request.course { q with flow := g } x s k).2 = (q.course x s k).2 := by
  have habreast : ∀ j, Abreast Eq q.flow g Progress.Alike (q.course x s j)
      (Request.course { q with flow := g } x s j) := fun j =>
    course_abreast companions_eq h.agrees rfl fun _ _ _ _ => rfl
  exact ⟨same_of_abreast companions_eq fun j _ => habreast j, (habreast k).executor.symm⟩

/-- Two nodes have one id, and two connections one source. The other flow has them elsewhere,
    and an end node with a script. -/
theorem rearrangement_of_a_fork :
    let start : Node := ⟨"s", .start, .origin, ⟨"Start", none, none, none, none⟩⟩
    let first : Node := ⟨"a", .task, .origin, ⟨"First", none, none, none, none⟩⟩
    let second : Node := ⟨"a", .task, .origin, ⟨"Second", none, none, none, none⟩⟩
    let last : Node := ⟨"e", .finish, .origin, ⟨"End", none, none, none, none⟩⟩
    let last' : Node := ⟨"e", .finish, ⟨.real 3, .nan 0⟩, ⟨"End", some "the end", some "x = 1", some "true", none⟩⟩
    let toFirst : Connection := ⟨"c", "s", "a", none⟩
    let toLast : Connection := ⟨"d", "s", "e", none⟩
    let onward : Connection := ⟨"b", "a", "e", none⟩
    let q : Request := ⟨.none, "t", ⟨"f", "Fork", none, [start, first, second, last], [toFirst, toLast, onward]⟩, []⟩
    let g : Flow := ⟨"f", "Other", some "rearranged", [last', first, start, second], [onward, toFirst, toLast]⟩
    let x : Executor := .create ⟨.scalar (.int 0), .scalar (.int 10)⟩ ⟨0, []⟩ .empty
    let s : Surroundings := ⟨fun _ => .response 200 [], fun _ => .ok ()⟩
    q.flow.Rearranges g ∧ SameRun q { q with flow := g } x x s 3 ∧
      (Request.course { q with flow := g } x s 3).2 = (q.course x s 3).2 := by
  intro start first second last last' toFirst toLast onward q g x s
  have hnodes : [last, first, start, second].Perm [start, first, second, last] :=
    ((List.Perm.swap start first [second]).cons last).trans (@List.perm_append_comm _ [last] [start, first, second])
  have horder : ∀ source, g.connections.filter (·.source == source) =
      q.flow.connections.filter (·.source == source) := by
    intro source
    by_cases hs : "s" = source
    · subst hs
      rfl
    · by_cases ha : "a" = source
      · subst ha
        rfl
      · simp [g, q, toFirst, toLast, onward, hs, ha]
  have hids : ∀ id, [last, first, start, second].find? (·.id == id) = q.flow.nodes.find? (·.id == id) := by
    intro id
    by_cases hs : "s" = id
    · subst hs
      rfl
    · by_cases ha : "a" = id
      · subst ha
        rfl
      · by_cases he : "e" = id
        · subst he
          rfl
        · simp [q, start, first, second, last, hs, ha, he]
  have hlast : last.Alike last' := ⟨rfl, rfl, rfl, nofun, nofun, nofun⟩
  have hrearranges : q.flow.Rearranges g :=
    ⟨rfl, by decide, horder, _, hnodes, rfl, hids,
      .cons hlast (.cons (.refl _) (.cons (.refl _) (.cons (.refl _) .nil)))⟩
  exact ⟨hrearranges, rearranged_flows_run_alike hrearranges x s 3⟩

end Run

end StepFlow
