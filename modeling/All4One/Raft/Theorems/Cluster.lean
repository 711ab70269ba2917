import All4One.Foundation.Lists
import All4One.Raft.Cluster
import All4One.Raft.Theorems.Registry

open Foundation Transition

namespace All4One.Raft

open SledStateMachine

section Nodes

variable {node node' : RaftNode} {a : NodeId} {accepts : List NodeId} {leaderId : LeaderId}
  {payload : EntryPayload} {cmd : RaftCommand} {now jobId : String} {response : RaftCommandResponse}
  {s : RaftState} {entries : List TimedEntry}

theorem isQuorum_of_singleton {m : Membership} (h : m.configs = [[a]]) :
    m.IsQuorum accepts ↔ a ∈ accepts := by
  rw [Membership.IsQuorum, h]
  by_cases ha : a ∈ accepts <;> simp [ha]

theorem applyEntries_memberships (h : ∀ e ∈ entries, ∃ m, e.1.payload = .membership m) :
    (applyEntries s entries).2.jobRegistry = s.jobRegistry := by
  induction entries generalizing s
  case nil => rfl
  case cons e entries hi =>
    rw [List.forall_mem_cons] at h
    have ⟨m, he⟩ := h.1
    refine (hi h.2).trans ?_
    simp only [he]

-- A node is the only member that it knows of, and whatever it has yet to apply says so.
structure RaftNode.Alone (a : NodeId) (node : RaftNode) : Prop where
  log     : node.log ≠ []
  configs : node.membership.configs = [[a]]
  pending : ∀ e ∈ node.log.drop node.applied, ∃ m, e.payload = .membership m
  applied : node.applied ≤ node.log.length

namespace RaftNode.Alone

theorem of_initRaft (a : NodeId) (grpcEndpoint : String) :
    Alone a (RaftNode.empty.initRaft a grpcEndpoint []) where
  log     := by simp [initRaft, empty]
  configs := rfl
  pending := by simp [initRaft, empty]
  applied := Nat.zero_le _

theorem initRaft_eq (h : Alone a node) (grpcEndpoint : String) (peers : List (NodeId × String)) :
    node.initRaft a grpcEndpoint peers = node :=
  if_neg h.log

theorem catchUp_jobRegistry (h : Alone a node) (committed : Nat) :
    (node.catchUp node.log committed now).state.jobRegistry = node.state.jobRegistry := by
  refine applyEntries_memberships fun e he => ?_
  have ⟨e', he', heq⟩ := List.mem_map.mp he
  subst heq
  rw [List.drop_take] at he'
  exact h.pending e' (List.mem_of_mem_take he')

theorem catchUp {committed : Nat} (h : Alone a node) (hc : committed ≤ node.log.length) :
    Alone a (node.catchUp node.log committed now) where
  log     := h.log
  configs := h.configs
  pending e he := by
    have hd : node.log.drop (max node.applied committed) <:+ node.log.drop node.applied :=
      List.drop_suffix_drop_left node.log (Nat.le_max_left _ _)
    exact h.pending e (hd.subset he)
  applied := Nat.max_le.mpr ⟨h.applied, hc⟩

-- It can commit on its own, and only so.
theorem propose_eq_none (h : Alone a node) :
    node.propose leaderId payload now accepts = none ↔ a ∉ accepts := by
  rw [← isQuorum_of_singleton h.configs, RaftNode.propose]
  split
  case isTrue hq  => simp [hq]
  case isFalse hq => simp [hq]

theorem propose (h : Alone a node) (hm : payload.membership? = none)
    (hp : node.propose leaderId payload now accepts = some (response, node')) : Alone a node' := by
  rw [RaftNode.propose] at hp
  split at hp
  case isFalse => cases hp
  case isTrue =>
    cases hp
    constructor
    case log => simp
    case configs =>
      rw [← h.configs]
      simp only [membership, RaftNode.catchUp, List.filterMap_append, List.filterMap_cons, hm,
        List.filterMap_nil, List.append_nil]
    case pending => simp [RaftNode.catchUp, h.applied]
    case applied => simp [RaftNode.catchUp, h.applied]

theorem propose_jobRegistry (h : Alone a node)
    (hp : node.propose leaderId payload now accepts = some (response, node')) :
    ∃ s, s.jobRegistry = node.state.jobRegistry ∧
      (response, node'.state) = applyEntry s (⟨⟨leaderId, node.log.length⟩, payload⟩, now) := by
  rw [RaftNode.propose] at hp
  split at hp
  case isFalse => cases hp
  case isTrue =>
    cases hp
    exact ⟨_, h.catchUp_jobRegistry _, rfl⟩

-- A command that is committed goes to the node's own registry.
theorem propose_normal (h : Alone a node)
    (hp : node.propose leaderId (.normal cmd) now accepts = some (response, node')) :
    (jobId ∈ node'.state.jobRegistry ↔
      jobId ∈ node.state.jobRegistry ∨ cmd.registeredJob = some jobId) ∧
    (cmd.registeredJob = some jobId →
      (response.success = true ↔ jobId ∉ node.state.jobRegistry)) := by
  have ⟨s, hs, he⟩ := h.propose_jobRegistry hp
  obtain ⟨rfl, hn⟩ := Prod.mk.inj he
  rw [hn, ← hs]
  constructor
  case left  => exact applyCommand_mem_iff
  case right =>
    intro hr
    cases cmd <;> cases hr
    exact (registerJob_success : (applyCommand _ now _).1.success = true ↔ _)

theorem propose_blank (h : Alone a node)
    (hp : node.propose leaderId .blank now accepts = some (response, node')) :
    node'.state.jobRegistry = node.state.jobRegistry := by
  have ⟨s, hs, he⟩ := h.propose_jobRegistry hp
  obtain ⟨-, hn⟩ := Prod.mk.inj he
  rw [hn, ← hs]

end RaftNode.Alone

end Nodes

namespace Reply

-- A reply to a registration of a job.
def Registers (jobId : String) (r : Reply) : Prop :=
  r.cmd.registeredJob = some jobId

instance (jobId : String) (r : Reply) : Decidable (r.Registers jobId) :=
  inferInstanceAs (Decidable (_ = _))

end Reply

namespace Cluster

-- How often the registration of a job has been answered with success, on all agents and on one.
def successes (s : Cluster) (jobId : String) : Nat :=
  s.replies.countP fun r => r.Registers jobId ∧ r.response.success

def successesAt (s : Cluster) (a : NodeId) (jobId : String) : Nat :=
  s.replies.countP fun r => r.nodeId = a ∧ r.Registers jobId ∧ r.response.success

-- No agent but one commits the registration of a job.
def OnlyAt (a : NodeId) (jobId : String) (_ : Cluster) : Event → Prop
  | .applyCommand b cmd _ _ accepts => cmd.registeredJob = some jobId → b ∈ accepts → b = a
  | _                               => True

instance (a : NodeId) (jobId : String) (s : Cluster) : (e : Event) → Decidable (OnlyAt a jobId s e)
  | .applyCommand b cmd _ _ accepts =>
    inferInstanceAs (Decidable (cmd.registeredJob = some jobId → b ∈ accepts → b = a))
  | .network _ | .initRaft _ _ | .elect _ _ _ _ | .replicate _ _ _ => .isTrue trivial

variable {net : Membership.Setting} {s s' : Cluster} {e : Event} {es : List Event} {a b : NodeId}
  {jobId : String} {node : RaftNode}

def registry (s : Cluster) (a : NodeId) : HashMap String RegisteredJob :=
  ((s.rafts.lookup a).getD .empty).state.jobRegistry

-- Every agent is on its own, and its registry holds what it has replied to.
structure Apart (s : Cluster) : Prop where
  alone  : ∀ a node, s.rafts.lookup a = some node → node.Alone a
  known  : ∀ a jobId, jobId ∈ s.registry a ↔ ∃ r ∈ s.replies, r.nodeId = a ∧ r.Registers jobId
  counts : ∀ a jobId, s.successesAt a jobId = if jobId ∈ s.registry a then 1 else 0

-- An event leaves the registries of all agents as they are, or has one agent commit a command.
theorem step_cases (h : step net s e = some s') (ha : s.Apart) :
    (s'.rafts = s.rafts ∧ s'.replies = s.replies ∧ ∀ b jobId, OnlyAt b jobId s e) ∨
    (∃ a node, node.Alone a ∧ node.state.jobRegistry = s.registry a ∧
      s'.rafts = s.rafts.insert a node ∧ s'.replies = s.replies ∧ ∀ b jobId, OnlyAt b jobId s e) ∨
    ∃ a cmd leaderId now accepts node node' response,
      e = .applyCommand a cmd leaderId now accepts ∧ a ∈ accepts ∧ s.rafts.lookup a = some node ∧
      node.propose leaderId (.normal cmd) now accepts = some (response, node') ∧
      s' = { s.setRaft a node' with replies := s.replies ++ [⟨a, cmd, response⟩] } := by
  cases e
  all_goals simp only [step, Option.bind_eq_bind, Option.bind_eq_some_iff, Option.pure_def] at h
  case network e =>
    have ⟨_, _, h⟩ := h
    cases h
    exact .inl ⟨rfl, rfl, fun _ _ => trivial⟩
  case initRaft a grpcEndpoint =>
    have ⟨m, _, h⟩ := h
    split at h <;> cases h
    refine .inr (.inl ⟨a, _, ?_, ?_, rfl, rfl, fun _ _ => trivial⟩)
    case refine_1 =>
      cases hl : s.rafts.lookup a
      case none => exact .of_initRaft a grpcEndpoint
      case some node =>
        have hn := ha.alone a node hl
        rw [Option.getD_some, hn.initRaft_eq]
        exact hn
    case refine_2 =>
      rw [RaftNode.initRaft, registry]
      split <;> rfl
  case elect a leaderId now accepts =>
    have ⟨node, hl, ⟨_, node'⟩, hp, h⟩ := h
    cases h
    have hn := ha.alone a node hl
    refine .inr (.inl ⟨a, node', hn.propose rfl hp, ?_, rfl, rfl, fun _ _ => trivial⟩)
    rw [hn.propose_blank hp, registry, hl, Option.getD_some]
  case applyCommand a cmd leaderId now accepts =>
    have ⟨node, hl, h⟩ := h
    have hn := ha.alone a node hl
    split at h
    case h_1 response node' hp =>
      cases h
      have hacc : a ∈ accepts := by
        by_contra hacc
        cases hp.symm.trans (hn.propose_eq_none.mpr hacc)
      exact .inr (.inr ⟨a, cmd, leaderId, now, accepts, node, node', response, rfl, hacc, hl, hp, rfl⟩)
    case h_2 hp =>
      cases h
      exact .inl ⟨rfl, rfl, fun b jobId _ hacc => absurd hacc (hn.propose_eq_none.mp hp)⟩
  case replicate a b now =>
    have ⟨leader, hl, node, hb, h⟩ := h
    have hn := ha.alone a leader hl
    split at h <;> cases h
    case isTrue hc =>
      -- A leader that is alone is followed by nobody else.
      have ⟨⟨config, hconfig, hmem⟩, _⟩ := hc
      rw [hn.configs, List.mem_singleton] at hconfig
      rw [hconfig, List.mem_singleton] at hmem
      subst hmem
      cases hl.symm.trans hb
      refine .inr (.inl ⟨b, _, ?_, ?_, rfl, rfl, fun _ _ => trivial⟩)
      case refine_1 => exact hn.catchUp hn.applied
      case refine_2 => rw [hn.catchUp_jobRegistry, registry, hl, Option.getD_some]

theorem registry_insert (h : s'.rafts = s.rafts.insert a node) : s'.registry b =
    if b = a then node.state.jobRegistry else s.registry b := by
  rw [registry, h, HashMap.lookup_insert']
  split <;> rfl

theorem alone_insert (h : s'.rafts = s.rafts.insert a node) (hn : node.Alone a)
    (ha : ∀ b node, s.rafts.lookup b = some node → node.Alone b) :
    ∀ b node, s'.rafts.lookup b = some node → node.Alone b := by
  intro b node' hl
  rw [h, HashMap.lookup_insert'] at hl
  split at hl
  case isTrue he => cases hl; exact he ▸ hn
  case isFalse   => exact ha b node' hl

theorem not_mem_registry_start : jobId ∉ start.registry a := by
  rw [registry, Cluster.start, Finmap.lookup_empty]
  exact Finmap.notMem_empty

theorem Apart.start : start.Apart where
  alone _ _ h := by
    rw [Cluster.start, Finmap.lookup_empty] at h
    cases h
  known a jobId := by
    refine iff_of_false not_mem_registry_start ?_
    rintro ⟨_, h, -⟩
    cases h
  counts a jobId := (if_neg not_mem_registry_start).symm

theorem Apart.step (ha : s.Apart) (h : Cluster.step net s e = some s') : s'.Apart := by
  rcases step_cases h ha with ⟨hr, hp, -⟩ | ⟨a, node, hn, hreg, hr, hp, -⟩ |
    ⟨a, cmd, leaderId, now, accepts, node, node', response, -, -, hl, hprop, rfl⟩
  case inl =>
    have hreg (b : NodeId) : s'.registry b = s.registry b := by rw [registry, hr, registry]
    constructor
    case alone  => rw [hr]; exact ha.alone
    case known  => intro b jobId; rw [hreg, hp]; exact ha.known b jobId
    case counts => intro b jobId; rw [hreg, successesAt, hp]; exact ha.counts b jobId
  case inr.inl =>
    have hreg (b : NodeId) : s'.registry b = s.registry b := by
      rw [registry_insert hr]
      split
      case isTrue hb => rw [hreg, hb]
      case isFalse   => rfl
    constructor
    case alone  => exact alone_insert hr hn ha.alone
    case known  => intro b jobId; rw [hreg, hp]; exact ha.known b jobId
    case counts => intro b jobId; rw [hreg, successesAt, hp]; exact ha.counts b jobId
  case inr.inr =>
    have hn := ha.alone a node hl
    have hmem (jobId : String) : jobId ∈ node'.state.jobRegistry ↔
        jobId ∈ s.registry a ∨ cmd.registeredJob = some jobId := by
      rw [registry, hl]
      exact (hn.propose_normal hprop).1
    have hsuccess (jobId : String) (hr : cmd.registeredJob = some jobId) :
        response.success = true ↔ jobId ∉ s.registry a := by
      rw [registry, hl]
      exact (hn.propose_normal hprop).2 hr
    constructor
    case alone => exact alone_insert rfl (hn.propose rfl hprop) ha.alone
    case known =>
      intro b jobId
      rw [registry_insert rfl]
      simp only [List.mem_append, List.mem_singleton, or_and_right, exists_or, exists_eq_left,
        ← ha.known b jobId]
      split
      case isTrue hb  => subst hb; rw [hmem]; simp [Reply.Registers]
      case isFalse hb => simp [Ne.symm hb]
    case counts =>
      intro b jobId
      rw [registry_insert rfl]
      have hs : successesAt { s.setRaft a node' with replies := s.replies ++ [⟨a, cmd, response⟩] } b
          jobId = s.successesAt b jobId + if a = b ∧ cmd.registeredJob = some jobId ∧ response.success
            then 1 else 0 := by
        rw [successesAt, List.countP_append, List.countP_singleton]
        exact congrArg _ (if_congr decide_eq_true_iff rfl rfl)
      rw [hs, ha.counts b jobId]
      by_cases hb : b = a
      case neg => simp [hb, Ne.symm hb]
      case pos =>
        subst hb
        rw [if_pos rfl]
        by_cases hr : cmd.registeredJob = some jobId
        case neg => simp [hmem, hr]
        case pos =>
          have hr' := hsuccess jobId hr
          by_cases hm : jobId ∈ s.registry b <;> simp [hmem, hr, hr', hm]

theorem Apart.run (h : Transition.run (Cluster.step net) Cluster.start es = some s) : s.Apart :=
  Reachable.invariant ⟨es, h⟩ .start fun _ _ _ => .step

-- The replies to the registrations of a job all come from one agent just where no other commits one.
theorem guarded_onlyAt_iff (ha : s.Apart) (h : Transition.run (step net) s es = some s') :
    (∀ r ∈ s'.replies, r.Registers jobId → r.nodeId = a) ↔
    (∀ r ∈ s.replies, r.Registers jobId → r.nodeId = a) ∧ Guarded (step net) (OnlyAt a jobId) s es := by
  induction es generalizing s
  case nil =>
    cases h
    simp [Guarded]
  case cons e es hi =>
    have ⟨s₁, hs, hr⟩ := run_cons_some.mp h
    rw [hi (ha.step hs) hr]
    have hg : Guarded (step net) (OnlyAt a jobId) s (e :: es) ↔
        OnlyAt a jobId s e ∧ Guarded (step net) (OnlyAt a jobId) s₁ es := by
      simp [Guarded, hs]
    rw [hg, ← and_assoc]
    refine and_congr_left' ?_
    rcases step_cases hs ha with ⟨-, hp, he⟩ | ⟨_, _, -, -, -, hp, he⟩ |
      ⟨b, cmd, leaderId, now, accepts, node, node', response, rfl, hacc, -, -, rfl⟩
    · simp [hp, he]
    · simp [hp, he]
    · simp only [List.forall_mem_append, List.forall_mem_singleton, OnlyAt, Reply.Registers, hacc,
        forall_const]

theorem successes_le_one_iff (ha : s.Apart) : s.successes jobId ≤ 1 ↔
    ∃ a, ∀ r ∈ s.replies, r.Registers jobId → r.nodeId = a := by
  have hmem {r : Reply} (hr : r ∈ s.replies) (hj : r.Registers jobId) :
      s.successesAt r.nodeId jobId = 1 := by
    rw [ha.counts, if_pos ((ha.known _ _).mpr ⟨r, hr, rfl, hj⟩)]
  constructor
  case mp =>
    intro h
    by_cases he : ∃ r ∈ s.replies, r.Registers jobId
    case neg => exact ⟨⟨0⟩, fun r hr hj => absurd ⟨r, hr, hj⟩ he⟩
    case pos =>
      have ⟨r, hr, hj⟩ := he
      refine ⟨r.nodeId, fun r' hr' hj' => by_contra fun hne => ?_⟩
      -- Two agents that have replied have both done so with success.
      have hle : s.successesAt r.nodeId jobId + s.successesAt r'.nodeId jobId ≤ s.successes jobId := by
        apply Lists.countP_add_countP_le
        · exact fun r₁ h₁ => decide_eq_true_iff.mpr (decide_eq_true_iff.mp h₁).2
        · exact fun r₁ h₁ => decide_eq_true_iff.mpr (decide_eq_true_iff.mp h₁).2
        · intro r₁ h₁
          have h₁ := (decide_eq_true_iff.mp h₁).1
          simp [h₁, Ne.symm hne]
      rw [hmem hr hj, hmem hr' hj'] at hle
      omega
  case mpr =>
    intro ⟨a, h⟩
    have hle : s.successes jobId ≤ s.successesAt a jobId := by
      refine List.countP_mono_left fun r hr hp => ?_
      have ⟨hj, hs⟩ := decide_eq_true_iff.mp hp
      exact decide_eq_true_iff.mpr ⟨h r hr hj, hj, hs⟩
    rw [ha.counts] at hle
    exact hle.trans (by split <;> simp)

-- A job is registered at most once just where one agent commits all registrations of it.
theorem one_registry_iff (h : Transition.run (step net) start es = some s) (jobId : String) :
    s.successes jobId ≤ 1 ↔ ∃ a, Guarded (step net) (OnlyAt a jobId) start es := by
  rw [successes_le_one_iff (.run h)]
  refine exists_congr fun a => (guarded_onlyAt_iff .start h).trans (and_iff_right ?_)
  intro r hr
  cases hr

section Sample

def sampleNode (n : BitVec 128) : NodeInfo where
  profile := {
    id                := ⟨n⟩
    tier              := 0
    availability      := "always"
    quorumParticipant := true
    resources         := { cpuCores := 4, memoryMb := 1024, diskMb := none }
    capabilities      := {
      docker := false, python := none, java := none, wasm := false, gpuEnabled := false
      storageNode := false
    }
  }
  status       := .online
  version      := "0.1.9"
  grpcEndpoint := "a:7947"
  restEndpoint := "a:7946"

def sampleSetting : Membership.Setting where
  host _   := none
  silent _ := none
  version  := "0.1.9"

-- Two agents start, the second one as a seed of the first one.
def sampleStart : List Event :=
  [.network (.boot (sampleNode 1) ["b:7947"]), .network (.boot (sampleNode 2) []),
    .initRaft ⟨1⟩ "a:7947", .initRaft ⟨2⟩ "b:7947",
    .elect ⟨1⟩ ⟨1, ⟨1⟩⟩ "10:00:00" [⟨1⟩], .elect ⟨2⟩ ⟨1, ⟨2⟩⟩ "10:00:00" [⟨2⟩]]

-- An agent has a job registered. All agents would accept that.
def registerAt (a : NodeId) : Event :=
  .applyCommand a (.registerJob "j" "1" "shell" "10:00:00") ⟨1, a⟩ "10:00:01" [⟨1⟩, ⟨2⟩]

theorem one_registry_sample : ∃ s, Transition.run (step sampleSetting) start
    (sampleStart ++ [registerAt ⟨1⟩, registerAt ⟨1⟩]) = some s ∧ s.successes "j" ≤ 1 := by
  have hs : (Transition.run (step sampleSetting) start
      (sampleStart ++ [registerAt ⟨1⟩, registerAt ⟨1⟩])).isSome = true := by
    decide +kernel
  have ⟨s, hs⟩ := Option.isSome_iff_exists.mp hs
  exact ⟨s, hs, (one_registry_iff hs "j").mpr ⟨⟨1⟩, by decide +kernel⟩⟩

theorem registers_twice_sample : (Transition.run (step sampleSetting) start
    (sampleStart ++ [registerAt ⟨1⟩, registerAt ⟨2⟩])).map (successes · "j") = some 2 := by
  decide +kernel

-- Each of the two agents registers the job in a registry of its own.
theorem one_registry_fails : ¬ ∀ (net : Membership.Setting) (es : List Event) (s : Cluster)
    (jobId : String), Transition.run (step net) start es = some s → s.successes jobId ≤ 1 := by
  intro h
  have ⟨s, hs, he⟩ := Option.map_eq_some_iff.mp registers_twice_sample
  have hle := h _ _ s "j" hs
  rw [he] at hle
  exact absurd hle (by decide)

end Sample

end Cluster

end All4One.Raft
