/-
The package reads every reply.

The kernel checks the texts that it is given where the package has an enumeration, and writes its
own texts for the rest: the state of a lease, the pressures, the priorities of the events, and the
times.  So whatever has been called before, as long as its clock shows years of four digits, the
package reads the plans, the snapshot and the events of an arena without an exception, and as they
have been written; only the time at which it reads a lease is its own.

Main definitions:

* `Env.Stamped` — the clock of the kernel shows years of four digits;
* `Legible` — the package reads what a state holds.

Main results:

* `StepOutcome.legible` — every operation keeps a state legible, and its plan is readable;
* `replies_read` — in every run the package reads the plans, the snapshot and the events.
-/

import ContextLease.ExactReads
import ContextLease.Mirror
import ContextLease.PlanSpec
import ContextLease.ValidationParity

set_option relaxedAutoImplicit false
set_option autoImplicit false

namespace ContextLease

open MachineNumbers RustText

variable {F : Type} [FloatOps F]

/-! ### Texts that are checked -/

omit [FloatOps F] in
theorem readable_countMode {request : PrepareRequest F} {counter : Option TokenCounter}
    (h : checkRequest request counter = .ok ()) :
    IsMember Host.CountMode request.model.countMode := by
  simp only [checkRequest, validateModel, Except.bind_eq_ok, validateChoice_eq_ok] at h
  obtain ⟨_, _, _, ⟨_, _, hmode⟩, _⟩ := h
  simp only [List.mem_cons, List.not_mem_nil, or_false] at hmode
  rcases hmode with heq | heq | heq <;> rw [heq] <;> exact ⟨_, rfl⟩

theorem readable_renderTarget_of_modules {ids : List String} {ms : List (ModuleDefinition F)}
    (h : validateModules ids ms = .ok ()) :
    ∀ m ∈ ms, IsMember Host.RenderTarget m.renderTarget := by
  induction ms generalizing ids with
  | nil => exact fun m hm => by cases hm
  | cons m ms ih =>
      simp only [validateModules, Except.bind_eq_ok] at h
      obtain ⟨_, _, _, hm, hms⟩ := h
      rw [List.forall_mem_cons]
      refine ⟨?_, ih hms⟩
      simp only [validateModule, Except.bind_eq_ok, validateChoice_eq_ok] at hm
      obtain ⟨_, _, _, _, _, _, _, _, _, _, _, _, _, htarget, _⟩ := hm
      simp only [List.mem_cons, List.not_mem_nil, or_false] at htarget
      rcases htarget with heq | heq | heq | heq <;> rw [heq] <;> exact ⟨_, rfl⟩

theorem readable_renderTarget (arena : ContextLeaseArena F) :
    ∀ m ∈ arena.definition.modules, IsMember Host.RenderTarget m.renderTarget := by
  have hvalid := arena.valid
  simp only [validateDefinition, Except.bind_eq_ok] at hvalid
  obtain ⟨_, _, hmodules⟩ := hvalid
  exact readable_renderTarget_of_modules hmodules

omit [FloatOps F] in
theorem readable_protection_of_chunks {moduleId : String} {ids : List String}
    {chunks : List (PromptChunk F)} (h : validateChunks moduleId ids chunks = .ok ()) :
    ∀ c ∈ chunks, IsMember Host.ProtectionPolicy c.protection := by
  induction chunks generalizing ids with
  | nil => exact fun c hc => by cases hc
  | cons c chunks ih =>
      simp only [validateChunks, Except.bind_eq_ok, validateChoice_eq_ok] at h
      obtain ⟨_, _, _, _, _, hprotection, hrest⟩ := h
      rw [List.forall_mem_cons]
      refine ⟨?_, ih hrest⟩
      simp only [List.mem_cons, List.not_mem_nil, or_false] at hprotection
      rcases hprotection with heq | heq | heq <;> rw [heq] <;> exact ⟨_, rfl⟩

omit [FloatOps F] in
theorem readable_protection_of_values {known : List String}
    {values : List (ModuleContribution F)} {out result : HashMap (ModuleContribution F)}
    (h : collectContributions known values out = .ok result) :
    ∀ v ∈ values, ∀ c ∈ v.chunks, IsMember Host.ProtectionPolicy c.protection := by
  induction values generalizing out with
  | nil => exact fun v hv => by cases hv
  | cons v values ih =>
      simp only [collectContributions, Except.bind_eq_ok] at h
      obtain ⟨_, _, _, _, _, _, _, hchunks, hrest⟩ := h
      rw [List.forall_mem_cons]
      exact ⟨readable_protection_of_chunks hchunks, ih hrest⟩

omit [FloatOps F] in
/-- The chunks that a module is given. -/
theorem readable_protection {definition : ArenaDefinition F}
    {values : List (ModuleContribution F)} {contributions : HashMap (ModuleContribution F)}
    (h : validateContributions definition values = .ok contributions) (m : ModuleDefinition F) :
    ∀ c ∈ chunksOf contributions m, IsMember Host.ProtectionPolicy c.protection := by
  intro c hc
  rw [chunksOf] at hc
  split at hc
  · rename_i contribution hfound
    have hmem := (((validateContributions_ok h).2 _ _).1 hfound).1
    exact readable_protection_of_values h contribution hmem c hc
  · cases hc

/-! ### Texts that the kernel writes -/

/-- What a call meets when the clock of the kernel shows years of four digits. -/
structure Env.Stamped (env : Env) : Prop where
  now : IsTimestamp env.now
  capturedAt : IsTimestamp env.capturedAt
  occurredAt : ∀ seq, IsTimestamp (env.occurredAt seq)

omit [FloatOps F] in
theorem Env.Stamped.call {op : Op F} (h : op.env.Stamped) {call : Call F}
    (hcall : op.call = some call) : call.env.Stamped := by
  cases op with
  | recordUsage env observation => cases hcall
  | _ =>
      obtain rfl := Option.some_inj.1 hcall
      exact h

theorem readable_pressure (used budget : ℤ) : IsMember Host.Pressure (pressure F used budget) := by
  rw [pressure]
  split
  · exact ⟨_, rfl⟩
  · split
    · exact ⟨_, rfl⟩
    · split <;> exact ⟨_, rfl⟩

theorem readable_leases {ar : Arith} {definition : ArenaDefinition F} {demands : String → ℤ}
    {layoutHash : String} {inputBudget : ℤ} {allocations : List ModuleAllocation}
    {leases : List Lease}
    (h : allocate ar definition demands layoutHash inputBudget = .ok (allocations, leases)) :
    ∀ l ∈ leases, l.Readable := by
  rw [allocate] at h
  split at h
  · obtain ⟨-, rfl⟩ := Prod.mk.inj (Except.ok.inj h)
    intro l hl
    obtain ⟨g, -, rfl⟩ := List.mem_map.1 hl
    exact ⟨.active, rfl⟩
  · cases h

/-- The chunks that the reclaim of a module leaves. -/
theorem readable_settled {P : Platform} {admission : Admission F}
    {semanticResults : HashMap String} {m : ModuleDefinition F} {x : SettledModule F}
    (h : SettledFrom P admission semanticResults m x)
    (hchunks : ∀ c ∈ chunksOf admission.contributions m,
      IsMember Host.ProtectionPolicy c.protection) :
    ∀ c ∈ x.chunks, IsMember Host.ProtectionPolicy c.protection := by
  obtain ⟨-, ⟨-, hwhole, -⟩ | ⟨-, hcompress⟩⟩ := reclaimModule_ok h.reclaimed
  · simp only at hwhole
    rwa [hwhole]
  · obtain ⟨-, text, -, -, hreclaimed, -⟩ := compressModule_ok hcompress
    simp only at hreclaimed
    rw [hreclaimed]
    intro c hc
    rcases List.mem_append.1 hc with hprotected | hcompressed
    · exact hchunks c (List.mem_filter.1 hprotected).1
    · obtain rfl := List.mem_singleton.1 hcompressed
      exact ⟨.elastic, rfl⟩

/-! ### Events -/

/-- A draft whose priority is one. -/
def EventDraft.Readable (draft : EventDraft) : Prop := IsMember Host.EventPriority draft.priority

theorem readable_eventsFrom (arena : ContextLeaseArena F) {env : Env} (henv : env.Stamped)
    (requestId : Option String) (seq : ℕ) {drafts : List EventDraft}
    (h : ∀ draft ∈ drafts, draft.Readable) :
    ∀ e ∈ eventsFrom arena env requestId seq drafts, e.Readable := by
  induction drafts generalizing seq with
  | nil => exact fun e he => by cases he
  | cons draft drafts ih =>
      rw [List.forall_mem_cons] at h
      rw [eventsFrom, List.forall_mem_cons]
      exact ⟨⟨h.1, henv.occurredAt _⟩, ih _ h.2⟩

theorem readable_callDrafts (P : Platform) (arena : ContextLeaseArena F) (env : Env)
    (request : PrepareRequest F) (admission : Admission F) (settled : Settled F)
    (s : ArenaState F) :
    ∀ draft ∈ callDrafts P arena env request admission settled s, draft.Readable := by
  have hreclaim : ∀ l, ∀ draft ∈ reclaimDrafts P (nextLeases admission.leases) l,
      draft.Readable := by
    intro l draft hdraft
    rw [reclaimDrafts] at hdraft
    split at hdraft
    · obtain rfl := List.mem_singleton.1 hdraft
      exact ⟨.state, rfl⟩
    · cases hdraft
  have hgrant : ∀ l, ∀ draft ∈ grantDrafts P s.activeLeases l, draft.Readable := by
    intro l draft hdraft
    rw [grantDrafts] at hdraft
    split at hdraft
    · obtain rfl := List.mem_singleton.1 hdraft
      exact ⟨.state, rfl⟩
    · cases hdraft
  have hcompressed : ∀ x : SettledModule F, ∀ draft ∈ compressedDrafts x, draft.Readable := by
    intro x draft hdraft
    rw [compressedDrafts] at hdraft
    split at hdraft
    · obtain rfl := List.mem_singleton.1 hdraft
      exact ⟨.state, rfl⟩
    · cases hdraft
  simp only [callDrafts, draftsToSnapshot, leaseDrafts, List.forall_mem_append,
    List.forall_mem_cons, List.forall_mem_flatMap]
  refine ⟨⟨⟨.state, rfl⟩, ⟨⟨?_, ?_⟩, ?_⟩, ⟨.state, rfl⟩, ?_⟩, ⟨.gauge, rfl⟩, ?_⟩
  · exact fun l _ => hreclaim l
  · exact fun l _ => hgrant l
  · exact fun x _ => hcompressed x
  · exact fun draft hdraft => by cases hdraft
  · exact fun draft hdraft => by cases hdraft

/-! ### Runs -/

/-- The package reads what a state holds. -/
structure Legible (s : ArenaState F) : Prop where
  ring : s.events.length ≤ eventCapacity
  events : ∀ e ∈ s.events, e.Readable
  snapshot : ∀ snapshot ∈ s.latestSnapshot, snapshot.Readable

omit [FloatOps F] in
theorem Legible.init : Legible ({} : ArenaState F) where
  ring := Nat.zero_le _
  events := fun e he => by cases he
  snapshot := fun snapshot hsnapshot => by cases hsnapshot

section Emit

variable {arena : ContextLeaseArena F} {s : ArenaState F}

theorem Legible.length_emit (h : Legible s) (env : Env) (requestId : Option String)
    (drafts : List EventDraft) :
    (s.emit arena env requestId drafts).events.length ≤ eventCapacity := by
  rw [events_emit h.ring, List.length_drop, List.length_append, length_eventsFrom]
  omega

theorem Legible.readable_emit (h : Legible s) {env : Env} (henv : env.Stamped)
    (requestId : Option String) {drafts : List EventDraft}
    (hdrafts : ∀ draft ∈ drafts, draft.Readable) :
    ∀ e ∈ (s.emit arena env requestId drafts).events, e.Readable := by
  intro e he
  rw [events_emit h.ring] at he
  rcases List.mem_append.1 (List.mem_of_mem_drop he) with hkept | hnew
  · exact h.events e hkept
  · exact readable_eventsFrom arena henv requestId _ hdrafts e hnew

end Emit

section Calls

variable {P : Platform} {arena : ContextLeaseArena F} {call : Call F} {admission : Admission F}
  {settled : Settled F} {s : ArenaState F}

theorem readable_usages (P : Platform) {env : Env} (henv : env.Stamped) (admission : Admission F)
    (settled : Settled F) (s : ArenaState F) :
    ∀ u ∈ callUsages P env admission settled s, u.Readable := by
  intro u hu
  obtain ⟨x, -, rfl⟩ := List.mem_map.1 hu
  exact ⟨readable_pressure _ _, henv.now⟩

/-- The snapshot of a decided call. -/
theorem readable_callSnapshot (henv : call.env.Stamped)
    (hdecided : call.decision P arena s = .ok (admission, settled)) (s' : ArenaState F) :
    (callSnapshot P arena call.env call.request admission settled s').Readable where
  capturedAt := henv.capturedAt
  tokenCountMode := readable_countMode (decision_ok P arena hdecided).1.checked
  pressure := readable_pressure _ _
  modules := readable_usages P henv admission settled s'
  leases := readable_leases (decision_ok P arena hdecided).1.allocated

/-- The plan of a decided call. -/
theorem readable_plan (henv : call.env.Stamped)
    (hdecided : call.decision P arena s = .ok (admission, settled)) :
    (call.plan P arena admission settled s).Readable where
  tokenCountMode := readable_countMode (decision_ok P arena hdecided).1.checked
  pressure := readable_pressure _ _
  leases := readable_leases (decision_ok P arena hdecided).1.allocated
  modules := readable_usages P henv admission settled s.beginTransaction
  modulePlans := by
    obtain ⟨hadmitted, hsettled⟩ := decision_ok P arena hdecided
    obtain ⟨hmodules, -, hchunks⟩ := settle_ok hsettled
    have hplans : (call.plan P arena admission settled s).modulePlans =
        settled.modules.map (settledPlan P call.env admission s.previousUsage) :=
      settledPlans_eq call.env s.previousUsage hchunks
    rw [hplans]
    intro p hp
    obtain ⟨x, hx, rfl⟩ := List.mem_map.1 hp
    obtain ⟨m, hm, hfrom⟩ := exists_of_forall₂ hmodules.flip hx
    refine ⟨?_, ⟨readable_pressure _ _, henv.now⟩, ?_⟩
    · rw [settledPlan, hfrom.module]
      exact readable_renderTarget arena m (mem_orderedModules.1 hm)
    · intro c hc
      obtain ⟨chunk, hchunk, rfl⟩ := List.mem_map.1 hc
      exact readable_settled hfrom (readable_protection hadmitted.contributions m) chunk hchunk
  traceEvents := readable_eventsFrom arena henv _ _
    (readable_callDrafts P arena call.env call.request admission settled s.beginTransaction)
  snapshot := readable_callSnapshot henv hdecided s.beginTransaction

end Calls

variable {P : Platform} {arena : ContextLeaseArena F}

/-- Every operation keeps a state legible, and its plan is readable. -/
theorem StepOutcome.legible {s s' : ArenaState F} {op : Op F}
    {plan : Option (PreparedContextPlan F)} (h : Legible s) (hop : op.env.Stamped)
    (hstep : StepOutcome P arena s op plan s') :
    Legible s' ∧ ∀ p ∈ plan, p.Readable := by
  cases hstep with
  | unchanged => exact ⟨h, fun p hp => by cases hp⟩
  | @prepared call admission settled hcall hdecided =>
      have henv := hop.call hcall
      refine ⟨?_, ?_⟩
      · rw [committed_eq P arena call admission settled s h.ring]
        refine ⟨h.length_emit call.env (some (callName arena call.request s)) _,
          h.readable_emit henv (some (callName arena call.request s))
            (readable_callDrafts P arena call.env call.request admission settled s), ?_⟩
        intro snapshot hsnapshot
        obtain rfl := Option.some_inj.1 hsnapshot
        obtain ⟨hcaptured, hmode, hpressure, hmodules, hleases⟩ :=
          readable_callSnapshot henv hdecided s
        exact ⟨hcaptured, hmode, hpressure, hmodules, hleases⟩
      · intro p hp
        obtain rfl := Option.some_inj.1 hp
        exact readable_plan henv hdecided
  | @reported env observation recent heq hblank hactual hrecent =>
      subst heq
      refine ⟨⟨h.length_emit env (some observation.requestId) _,
        h.readable_emit hop (some observation.requestId) ?_, ?_⟩, fun p hp => by cases hp⟩
      · intro draft hdraft
        obtain rfl := List.mem_singleton.1 hdraft
        exact ⟨.state, rfl⟩
      · intro snapshot hsnapshot
        obtain ⟨earlier, hearlier, rfl⟩ := Option.mem_map.1 hsnapshot
        obtain ⟨hcaptured, hmode, hpressure, hmodules, hleases⟩ := h.snapshot earlier hearlier
        exact ⟨hcaptured, hmode, hpressure, hmodules, hleases⟩

variable (P arena)

/-- Every run leaves a legible state, and its plans are readable. -/
theorem legible_run {ops : List (Op F)} (hops : ∀ op ∈ ops, op.env.Stamped) {s : ArenaState F}
    (h : Legible s) :
    Legible (run P arena s ops) ∧ ∀ p ∈ plans P arena s ops, p.Readable := by
  induction ops generalizing s with
  | nil => exact ⟨h, fun p hp => by cases hp⟩
  | cons op ops ih =>
      rw [List.forall_mem_cons] at hops
      obtain ⟨hnext, hplan⟩ := (step_outcome s op).legible h hops.1
      obtain ⟨hlast, hplans⟩ := ih hops.2 hnext
      refine ⟨hlast, ?_⟩
      intro p hp
      rcases List.mem_append.1 hp with hfirst | hlater
      · exact hplan p (Option.mem_toList.1 hfirst)
      · exact hplans p hlater

/-- In every run whose clock shows years of four digits, the package reads what the kernel has
written: the plans, the snapshot and the events in the ring, under the name it publishes them.  Each
lease bears the time at which it has been read, and no reason. -/
theorem replies_read (py : PythonReads F) (clock : ℕ → Host.Datetime)
    (instanceIdOverride : Option String) {ops : List (Op F)}
    (hops : ∀ op ∈ ops, op.env.Stamped) (n : ℕ) :
    (∀ plan ∈ plans P arena {} ops,
      Reply.readPlan py clock instanceIdOverride plan.toValue n =
        .ok (⟨hostPlan instanceIdOverride plan, Reply.grantedFrom clock n plan.leases,
            Reply.grantedFrom clock (n + plan.leases.length) plan.snapshot.leases⟩,
          n + plan.leases.length + plan.snapshot.leases.length)) ∧
      (∀ snapshot ∈ (run P arena {} ops).latestSnapshot, ∀ instanceId,
        Reply.readSnapshot py clock instanceId snapshot.toValue n =
          .ok (⟨hostSnapshot instanceId snapshot, Reply.grantedFrom clock n snapshot.leases⟩,
            n + snapshot.leases.length)) ∧
      ∀ event ∈ (run P arena {} ops).events, ∀ instanceId,
        Reply.readEvent py clock instanceId event.toValue n =
          .ok (hostEvent instanceId event, n) := by
  obtain ⟨hstate, hplans⟩ := legible_run P arena hops Legible.init
  refine ⟨?_, ?_, ?_⟩
  · intro plan hplan
    exact Reply.readPlan_toValue py clock instanceIdOverride (hplans plan hplan) n
  · intro snapshot hsnapshot instanceId
    exact Reply.readSnapshot_toValue py clock instanceId (hstate.snapshot snapshot hsnapshot) n
  · intro event hevent instanceId
    rw [Reply.readEvent_toValue py clock instanceId (hstate.events event hevent)]
    rfl

/-- A call at the beginning of the year 2000. -/
def stampedEnv : Env :=
  { (default : Env) with
    now := formatUtcTimestamp 946684800 123
    capturedAt := formatUtcTimestamp 946684800 123
    occurredAt := fun _ => formatUtcTimestamp 946684800 123 }

theorem stampedEnv_stamped : stampedEnv.Stamped := by
  have hstamp : IsTimestamp (formatUtcTimestamp 946684800 123) :=
    ⟨946684800, 123, ⟨⟨2000, 1, 1, by decide, by decide, by decide, by decide⟩,
      by decide +kernel, by decide⟩, by decide, rfl⟩
  exact ⟨hstamp, hstamp, fun _ => hstamp⟩

/-- A plan with a lease, which is read at two times. -/
theorem replies_read_example :
    ∃ plan read n, planOf (Library.ascii id).release exampleArena {}
        (.prepare stampedEnv exampleRequest none) = some plan ∧
      Reply.readPlan exactReads exampleClock none plan.toValue 0 = .ok (read, n) ∧
      read.plan.rendered = "Answer in one sentence.\n\nWe met on Monday. Bye" ∧
      read.plan.snapshot.capturedAt = "2000-01-01T00:00:00.123Z" ∧
      (read.leases.map fun l => (l.leaseId, l.grantedAt.second)) =
        [("layout:system:history", 0)] ∧
      (read.snapshotLeases.map fun l => (l.leaseId, l.grantedAt.second)) =
        [("layout:system:history", 1)] := by
  have hplanned : (planOf (Library.ascii id).release exampleArena {}
      (.prepare stampedEnv exampleRequest none)).map (fun plan =>
        (plan.rendered, plan.snapshot.capturedAt,
          (Reply.grantedFrom exampleClock 0 plan.leases).map fun l =>
            (l.leaseId, l.grantedAt.second),
          (Reply.grantedFrom exampleClock (0 + plan.leases.length) plan.snapshot.leases).map
            fun l => (l.leaseId, l.grantedAt.second))) =
      some ("Answer in one sentence.\n\nWe met on Monday. Bye", "2000-01-01T00:00:00.123Z",
        [("layout:system:history", 0)], [("layout:system:history", 1)]) := by decide +kernel
  obtain ⟨plan, hplan, hread⟩ := Option.map_eq_some_iff.1 hplanned
  simp only [Prod.mk.injEq] at hread
  have hmem : plan ∈ plans (Library.ascii id).release exampleArena {}
      [.prepare stampedEnv exampleRequest none] := by
    rw [plans, hplan]
    exact List.mem_cons_self ..
  have hops : ∀ op ∈ [(.prepare stampedEnv exampleRequest none : Op ℚ)], op.env.Stamped := by
    intro op hop
    obtain rfl := List.mem_singleton.1 hop
    exact stampedEnv_stamped
  have hread' := (replies_read (Library.ascii id).release exampleArena exactReads exampleClock none
    hops 0).1 plan hmem
  exact ⟨plan, _, _, hplan, hread', hread⟩

end ContextLease
