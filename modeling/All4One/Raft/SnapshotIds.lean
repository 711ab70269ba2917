import All4One.Raft.Snapshot

open Foundation

namespace All4One.Raft

-- JSON, as it depends on the order in which the hash maps of a state happen to be iterated.
structure Json (ι β : Type) where
  toVec           : ι → RaftState → β
  fromSlice       : β → Option RaftState
  fromSlice_toVec : ∀ order state, fromSlice (toVec order state) = some state

def Json.inOrder {ι β : Type} (json : Json ι β) (order : ι) : Serde RaftState β where
  toVec           := json.toVec order
  fromSlice       := json.fromSlice
  fromSlice_toVec := json.fromSlice_toVec order

inductive Producer
  | buildSnapshot
  | getCurrentSnapshot
  deriving DecidableEq, Repr

-- The state machine of a node, with the order of its hash maps, and what it has handed out.
structure SnapshotSource (ι β : Type) where
  sm        : SledStateMachine β
  order     : ι
  builders  : List SledSnapshotBuilder
  drawn     : List Uuid
  handedOut : List (Producer × Snapshot β)

namespace SnapshotSource

-- What changes a hash map leaves it in some order.
inductive Event (ι β : Type)
  | apply (entries : List TimedEntry) (order : ι)
  | install (snapshot : Snapshot β) (order : ι)
  | restart (order : ι)
  | getBuilder
  | build (builder : Nat) (order : ι) (snapshotId : Uuid)
  | current

variable {ι β : Type} [DecidableEq β] (json : Json ι β) (null : β)

def handOut (s : SnapshotSource ι β) (producer : Producer) (snapshot : Snapshot β) :
    SnapshotSource ι β :=
  { s with handedOut := s.handedOut ++ [(producer, snapshot)] }

def step (s : SnapshotSource ι β) : Event ι β → Option (SnapshotSource ι β)
  | .apply entries order =>
    some { s with sm := (s.sm.apply (json.inOrder order) entries).2, order }
  | .install snapshot order =>
    match s.sm.installSnapshot (json.inOrder order) snapshot with
    | some sm => some { s with sm, order }
    | none    => some s
  | .restart order =>
    some { s with sm := .openDb (json.inOrder order) s.sm.db, order, builders := [] }
  | .getBuilder =>
    some { s with builders := s.builders ++ [s.sm.getSnapshotBuilder] }
  | .build i order snapshotId =>
    match s.builders[i]? with
    | none         => none
    | some builder =>
      -- A UUID is not drawn again.
      if snapshotId ∈ s.drawn then
        none
      else
        let snapshot := builder.buildSnapshot (json.inOrder order) snapshotId.toText
        some { s.handOut .buildSnapshot snapshot with drawn := snapshotId :: s.drawn }
  | .current =>
    match s.sm.getCurrentSnapshot (json.inOrder s.order) null with
    | some snapshot => some (s.handOut .getCurrentSnapshot snapshot)
    | none          => some s

def start (db : HashMap String β) (order : ι) : SnapshotSource ι β where
  sm        := .openDb (json.inOrder order) db
  order     := order
  builders  := []
  drawn     := []
  handedOut := []

-- Snapshots with different bytes have different ids.
def Distinguishes (s : SnapshotSource ι β) : Prop :=
  ∀ a ∈ s.handedOut, ∀ b ∈ s.handedOut,
    a.2.data ≠ b.2.data → a.2.metadata.snapshotId ≠ b.2.metadata.snapshotId

-- Where `get_current_snapshot` has a snapshot to hand out, the state is, byte by byte, what it has been
-- each time before.
def Unchanged (s : SnapshotSource ι β) (e : Event ι β) : Prop :=
  e = .current → json.toVec s.order s.sm.state ≠ null → s.sm.state.lastApplied.isSome →
    ∀ a ∈ s.handedOut, a.1 = .getCurrentSnapshot → a.2.data = json.toVec s.order s.sm.state

instance (s : SnapshotSource ι β) : (e : Event ι β) → Decidable (s.Unchanged json null e)
  | .current =>
    decidable_of_iff (json.toVec s.order s.sm.state ≠ null → s.sm.state.lastApplied.isSome →
      ∀ a ∈ s.handedOut, a.1 = .getCurrentSnapshot → a.2.data = json.toVec s.order s.sm.state)
      ⟨fun h _ => h, fun h => h rfl⟩
  | .apply ..   => .isTrue nofun
  | .install .. => .isTrue nofun
  | .restart _  => .isTrue nofun
  | .getBuilder => .isTrue nofun
  | .build ..   => .isTrue nofun

end SnapshotSource

end All4One.Raft
