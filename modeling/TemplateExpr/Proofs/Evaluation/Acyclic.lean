-- Lists in sessions. As long as no function of the host changes a list in place, every list
-- that a session comes to holds only lists that were there before it, so none holds itself,
-- and whatever goes through the items of a value comes to an end.
import TemplateExpr.Proofs.Evaluation.Building
import TemplateExpr.Session

namespace TemplateExpr

namespace Context

variable {σ : Type} (held : σ → List Value)

/-! ## Sessions -/

/-- What a session on one context may come to, with functions of the host that only build. A value
that a variable is set to may be built for it, and a function that is registered may bring along
what the host is to hold. -/
inductive Reaches : Context σ → World σ → Prop
  | start {pattern s} : (∀ v ∈ held s, v.In {}) → Reaches { pattern } ⟨{}, s, #[]⟩
  | set {ctx w h name v} : Reaches ctx w → w.heap.Builds h → v.In h →
      Reaches { ctx with values := ctx.values.set name v } { w with heap := h }
  | eval {ctx w} (e : Expr) : Reaches ctx w → Reaches ctx ((ctx.eval e).run w).2
  | bind {ctx w name v w'} (e : Expr) : Reaches ctx w →
      (ctx.eval e).run w = (.ok v, w') →
      Reaches { ctx with values := ctx.values.set name v } w'
  | register {ctx w name f s} : Reaches ctx w → BuildsOnly held f →
      (∀ v ∈ held s, v.In w.heap) →
      Reaches { ctx with functions := ctx.functions.set name f } { w with state := s }
  | format {ctx w pattern} : Reaches ctx w → Reaches { ctx with pattern } w

variable {held} {ctx : Context σ} {w : World σ}

theorem Sound.build (h : ctx.Sound held w) {heap : Heap} (hbuilds : w.heap.Builds heap) :
    ctx.Sound held { w with heap } := by
  refine ⟨⟨hbuilds.ordered h.world.ordered, ?_⟩, ?_, h.functions⟩
  · exact fun v hv => hbuilds.kept.mono (h.world.held v hv)
  · exact fun name v hv => hbuilds.kept.mono (h.values name v hv)

theorem Sound.set (h : ctx.Sound held w) (name : String) {v : Value} (hv : v.In w.heap) :
    ({ ctx with values := ctx.values.set name v } : Context σ).Sound held w := by
  refine ⟨h.world, ?_, h.functions⟩
  intro other u hu
  by_cases hname : other = name
  · subst hname
    rw [Bindings.find?_set_self] at hu
    cases hu
    exact hv
  · rw [Bindings.find?_set_of_ne _ _ hname] at hu
    exact h.values other u hu

theorem Sound.register (h : ctx.Sound held w) (name : String) {f : HostFunction σ} {s : σ}
    (hf : BuildsOnly held f) (hs : ∀ v ∈ held s, v.In w.heap) :
    ({ ctx with functions := ctx.functions.set name f } : Context σ).Sound held
      { w with state := s } := by
  refine ⟨⟨h.world.ordered, hs⟩, h.values, ?_⟩
  intro other g hg
  by_cases hname : other = name
  · subst hname
    rw [Bindings.find?_set_self] at hg
    cases hg
    exact hf
  · rw [Bindings.find?_set_of_ne _ _ hname] at hg
    exact h.functions other g hg

/-- A session keeps its heap ordered and its values in it, from step to step. -/
theorem Reaches.sound (h : Reaches held ctx w) : ctx.Sound held w := by
  induction h with
  | start hheld =>
    have hempty : ∀ {α : Type} (name : String) (a : α), ({} : Bindings α).find? name ≠ some a :=
      fun _ _ => Option.some_ne_none _ ∘ Eq.symm
    exact ⟨⟨Heap.ordered_empty, hheld⟩, fun name v hv => absurd hv (hempty name v),
      fun name f hf => absurd hf (hempty name f)⟩
  | set _ hbuilds hv ih => exact (ih.build hbuilds).set _ hv
  | eval e _ ih => exact ih.after (ih.buildsFrom_eval e)
  | bind e _ hrun ih =>
    have hbuilds := ih.buildsFrom_eval e
    have hafter := ih.after hbuilds
    have hresult := hbuilds.result _ (by rw [hrun])
    rw [hrun] at hafter hresult
    exact hafter.set _ (hresult _ List.mem_cons_self)
  | register _ hf hs ih => exact ih.register _ hf hs
  | format _ ih => exact ⟨ih.world, ih.values, ih.functions⟩

end Context

/-! ## Sessions step by step -/

namespace Sample

theorem builds_fresh {h : Heap} {items : List Value} (hitems : ∀ v ∈ items, v.In h) :
    h.Builds (fresh h items).2 ∧ ∀ v, (fresh h items).1 = .ok v → v.In (fresh h items).2 := by
  refine ⟨.newList .refl hitems, ?_⟩
  rintro v ⟨⟩
  exact h.in_newList items

/-- Only two of the sample functions change a list in place. -/
theorem builds_act {s : Sample} (hs : s ≠ .push ∧ s ≠ .clear) (n : Nat) {args : List Value}
    (span : Span) {h : Heap} (ho : h.Ordered) (hargs : ∀ v ∈ args, v.In h) :
    h.Builds (s.act n args span h).2 ∧
      ∀ v, (s.act n args span h).1 = .ok v → v.In (s.act n args span h).2 := by
  cases s with
  | echo =>
    refine ⟨.refl, ?_⟩
    rintro v ⟨⟩
    cases args with
    | nil => trivial
    | cons a vs => exact hargs a List.mem_cons_self
  | count | span =>
    refine ⟨.refl, ?_⟩
    rintro v ⟨⟩
    trivial
  | list => exact builds_fresh hargs
  | fail => exact ⟨.refl, by simp [act]⟩
  | push => exact absurd rfl hs.1
  | clear => exact absurd rfl hs.2
  | sequence =>
    unfold act
    dsimp only
    split
    · rename_i items hitems
      obtain ⟨a, _, hsequence⟩ := Option.bind_eq_some_iff.1 hitems
      exact builds_fresh (ho.closed.of_sequence hsequence)
    · refine ⟨.refl, ?_⟩
      rintro v ⟨⟩
      trivial

theorem buildsOnly {s : Sample} (hs : s ≠ .push ∧ s ≠ .clear) (name : String) (counter : Nat) :
    BuildsOnly (fun _ => []) (s.function name counter) := by
  intro args span h j ho hargs _
  obtain ⟨hbuilds, hresult⟩ := builds_act hs (j.counters[counter]?.getD 0 + 1) span ho hargs
  exact ⟨hbuilds, List.forall_mem_nil _, hresult⟩

end Sample

theorem Context.run_of_evalSource {σ : Type} {ctx : Context σ} {source : String} {w w' : World σ}
    {v : Value} (h : ctx.evalSource source w = (.ok v, w')) :
    ∃ e, (ctx.eval e).run w = (.ok v, w') := by
  unfold evalSource at h
  split at h
  · cases h
  · rename_i e _
    refine ⟨e, ?_⟩
    rcases hrun : (ctx.eval e).run w with ⟨err | u, w₁⟩
    · rw [hrun] at h
      cases h
    · rw [hrun] at h
      cases h
      rfl

namespace Session

/-- A step that hands in no list of a heap and registers no function that changes one. -/
def Step.SparesLists : Step → Prop
  | .set _ value => value.Free
  | .register _ function => function ≠ .push ∧ function ≠ .clear
  | _ => True

theorem reaches_step {s : Session} {t : Step} (ht : t.SparesLists)
    (h : Context.Reaches (fun _ => []) s.context s.world) :
    Context.Reaches (fun _ => []) (s.step t).2.context (s.step t).2.world := by
  have heval : ∀ source, Context.Reaches (fun _ => []) s.context (s.eval source).2.world := by
    intro source
    simp only [Session.eval, Context.evalSource]
    cases Expr.ofSource source with
    | error err => exact h
    | ok e => exact h.eval e
  cases t with
  | set name value =>
    obtain ⟨hbuilds, hin⟩ := s.world.heap.builds_store value ht
    exact h.set hbuilds hin
  | get | same | names => exact h
  | eval source => exact heval source
  | bind name source =>
    simp only [Session.step]
    cases hdone : (s.eval source).1 with
    | error err => exact heval source
    | ok v =>
      have hsource : s.context.evalSource source s.world = (.ok v, (s.eval source).2.world) :=
        Prod.ext hdone rfl
      obtain ⟨e, hrun⟩ := Context.run_of_evalSource hsource
      exact h.bind e hrun
  | register name function =>
    exact h.register (Sample.buildsOnly ht name _) (List.forall_mem_nil _)
  | format pattern => exact h.format

/-- The session after so many steps. -/
def run (steps : List Step) : Session := steps.foldl (fun s t => (s.step t).2) empty

theorem reaches_run {steps : List Step} (hsteps : ∀ t ∈ steps, t.SparesLists) :
    Context.Reaches (fun _ => []) (run steps).context (run steps).world := by
  have of_start : ∀ s : Session, Context.Reaches (fun _ => []) s.context s.world →
      Context.Reaches (fun _ => []) (steps.foldl (fun s t => (s.step t).2) s).context
        (steps.foldl (fun s t => (s.step t).2) s).world := by
    induction steps with
    | nil => exact fun s h => h
    | cons t ts ih =>
      intro s h
      exact ih (fun u hu => hsteps u (List.mem_cons_of_mem t hu)) _
        (reaches_step (hsteps t List.mem_cons_self) h)
  exact of_start empty (.start (List.forall_mem_nil _))

end Session

/-! ## The law -/

namespace Context

variable {σ : Type} {held : σ → List Value} {ctx : Context σ} {w : World σ}

/-- No list holds itself, and so what goes through the items of a value comes to an end: of every
value that is bound to a name, that an expression has, or that refers to a list at all. -/
structure NeverCyclic (ctx : Context σ) (w : World σ) : Prop where
  /-- Each list refers only to lists that were created before it. -/
  ordered : w.heap.Ordered
  wellFounded : WellFounded w.heap.Holds
  values : ∀ name v, ctx.values.find? name = some v → w.heap.Ends v
  results : ∀ e v w', (ctx.eval e).run w = (.ok v, w') → w'.heap.Ends v
  ends : ∀ v, v.In w.heap → w.heap.Ends v

theorem Sound.neverCyclic (h : ctx.Sound held w) : ctx.NeverCyclic w := by
  have hordered := h.world.ordered
  refine ⟨hordered, hordered.wellFounded, ?_, ?_, fun v hv => hordered.ends hv⟩
  · exact fun name v hv => hordered.ends (h.values name v hv)
  · intro e v w' hrun
    have hbuilds := h.buildsFrom_eval e
    have hresult := hbuilds.result v (by rw [hrun])
    have hafter := hbuilds.builds.ordered hordered
    rw [hrun] at hresult hafter
    exact hafter.ends (hresult v List.mem_cons_self)

/-- In a session whose functions change no list in place, no list ever holds itself. -/
theorem no_list_of_a_session_holds_itself (held : σ → List Value) (ctx : Context σ) (w : World σ)
    (h : Reaches held ctx w) : ctx.NeverCyclic w := h.sound.neverCyclic

/-- A session in which a list is appended to itself, and goes through a function of the host. -/
def appending : Session :=
  .run [.set "a" (.list [.leaf (.int 1), .object "box" (some [.list []])]),
    .bind "b" "a << a", .register "pair" .list, .bind "a" "pair(b, b ?? a) << b"]

theorem a_list_appended_to_itself_is_no_cycle :
    appending.world.heap.items ⟨4⟩ = [.list ⟨2⟩, .list ⟨2⟩, .list ⟨2⟩] ∧
      appending.context.NeverCyclic appending.world := by
  refine ⟨by decide +kernel, no_list_of_a_session_holds_itself _ _ _ (Session.reaches_run ?_)⟩
  simp [Session.Step.SparesLists, Datum.Free, Datum.FreeAll, Value.kind]

end Context

end TemplateExpr
