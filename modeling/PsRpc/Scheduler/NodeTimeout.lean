import PsRpc.Scheduler.ClusterState

/-! # The timeout of nodes and its configuration

`UpdateClusterState` compares the age of the last heartbeat of each node with
`ClusterConfig::heartbeat_timeout()`. No setter writes this value, so that it is 30 seconds in every
history.
-/

namespace PsRpc

inductive MonitorEvent where
  | heartbeat (nodeId : String) (now : Int)
  | setHeartbeatTimeout (seconds : UInt32)
  | setHeartbeatInterval (seconds : UInt32)
  | updateClusterState (now : Int)
deriving DecidableEq, Repr

/-- The configuration, which is static in the source, and the manager that reads it. -/
structure Monitor where
  times : ClusterTimes
  manager : NodeManager

namespace Monitor

def new (config : ClusterConfig) : Monitor := ⟨{}, NodeManager.new.initNodeNum config⟩

def step (s : Monitor) : MonitorEvent → Monitor
  | .heartbeat nodeId now => { s with manager := s.manager.updateHeartbeat now nodeId }
  | .setHeartbeatTimeout seconds => { s with times := s.times.setHeartbeatTimeout seconds }
  | .setHeartbeatInterval seconds => { s with times := s.times.setHeartbeatInterval seconds }
  | .updateClusterState now =>
    { s with manager := s.manager.updateClusterState s.times.heartbeatTimeout now }

def run (config : ClusterConfig) (history : List MonitorEvent) : Monitor :=
  history.foldl step (new config)

end Monitor

def heartbeatsOf (nodeId : String) (history : List MonitorEvent) : List Int :=
  history.filterMap fun
    | .heartbeat id now => if id = nodeId then some now else none
    | _ => none

def lastHeartbeat (nodeId : String) (history : List MonitorEvent) : Option Int :=
  (heartbeatsOf nodeId history).getLast?

def givenTimeouts (history : List MonitorEvent) : List UInt32 :=
  history.filterMap fun
    | .setHeartbeatTimeout seconds => some seconds
    | _ => none

def configuredTimeout (history : List MonitorEvent) : UInt32 :=
  (givenTimeouts history).getLast?.getD ({} : ClusterTimes).heartbeatTimeout

/-- After an `UpdateClusterState`, the nodes in `timeout_nodes_info_` are those that were silent for
longer than the configured time. -/
def TimeoutExact (config : ClusterConfig) (history : List MonitorEvent) (now : Int) : Prop :=
  ∀ id, id ∈ (Monitor.run config (history ++ [.updateClusterState now])).manager.timeoutNodesInfo ↔
    ∃ last, lastHeartbeat id history = some last ∧ last + (configuredTimeout history).toNat < now

namespace Monitor

variable {config : ClusterConfig} {history : List MonitorEvent}

theorem run_snoc (event : MonitorEvent) :
    run config (history ++ [event]) = (run config history).step event := by
  simp [run]

theorem step_update (s : Monitor) (now : Int) :
    (s.step (.updateClusterState now)).manager =
      s.manager.updateClusterState s.times.heartbeatTimeout now := rfl

theorem step_heartbeatTimeout (s : Monitor) (event : MonitorEvent) :
    (s.step event).times.heartbeatTimeout = s.times.heartbeatTimeout := by
  cases event <;> rfl

/-- No history changes the value that `UpdateClusterState` reads. -/
theorem run_heartbeatTimeout :
    (run config history).times.heartbeatTimeout = 30 := by
  induction history using List.reverseRecOn with
  | nil => rfl
  | append_singleton history event ih => rw [run_snoc, step_heartbeatTimeout, ih]

theorem lastHeartbeat_snoc (id : String) (event : MonitorEvent) :
    lastHeartbeat id (history ++ [event]) =
      (heartbeatsOf id [event]).getLast?.or (lastHeartbeat id history) := by
  simp [lastHeartbeat, heartbeatsOf, List.filterMap_append, List.getLast?_append]

theorem run_heartbeats (config : ClusterConfig) (history : List MonitorEvent) (id : String) :
    (run config history).manager.heartbeats.lookup id = lastHeartbeat id history := by
  induction history using List.reverseRecOn with
  | nil => rfl
  | append_singleton history event ih =>
    rw [run_snoc, lastHeartbeat_snoc]
    cases event with
    | heartbeat nodeId now =>
      change AList.lookup id ((run config history).manager.heartbeats.insert nodeId now) = _
      rw [Table.lookup_insert, ih]
      by_cases hId : id = nodeId
      · subst hId
        simp [heartbeatsOf]
      · simp [heartbeatsOf, hId, Ne.symm hId]
    | setHeartbeatTimeout seconds => exact ih
    | setHeartbeatInterval seconds => exact ih
    | updateClusterState now =>
      have hUpdate := NodeManager.clusterUpdate (run config history).manager
        (run config history).times.heartbeatTimeout now
      rw [step_update, hUpdate.heartbeats, ih]
      rfl

theorem mem_timeouts (id : String) (now : Int) :
    id ∈ (run config (history ++ [.updateClusterState now])).manager.timeoutNodesInfo ↔
      ∃ last, lastHeartbeat id history = some last ∧ last + 30 < now := by
  have hUpdate := NodeManager.clusterUpdate (run config history).manager
    (run config history).times.heartbeatTimeout now
  rw [run_snoc, step_update, hUpdate.timeouts, NodeManager.mem_timedOut, run_heartbeatTimeout]
  constructor
  · rintro ⟨⟨id', last⟩, hEntry, hOld, rfl⟩
    refine ⟨last, ?_, hOld⟩
    rw [← run_heartbeats config]
    exact AList.mem_lookup_iff.mpr hEntry
  · rintro ⟨last, hLast, hOld⟩
    rw [← run_heartbeats config] at hLast
    exact ⟨⟨id, last⟩, AList.mem_lookup_iff.mp hLast, hOld, rfl⟩

end Monitor

/-- The timeouts are exact if and only if no node was silent for a time between the configured
value and the initial one, where the two would disagree. -/
theorem node_timeout_exact_iff (config : ClusterConfig) (history : List MonitorEvent) (now : Int) :
    TimeoutExact config history now ↔
      ∀ id last, lastHeartbeat id history = some last →
        ¬(min (configuredTimeout history).toNat 30 < now - last ∧
          now - last ≤ max (configuredTimeout history).toNat 30) := by
  constructor
  · intro hExact id last hLast
    have hId := hExact id
    rw [Monitor.mem_timeouts] at hId
    simp only [hLast, Option.some.injEq, exists_eq_left'] at hId
    omega
  · intro hApart id
    rw [Monitor.mem_timeouts]
    constructor
    · rintro ⟨last, hLast, hOld⟩
      have hSilent := hApart id last hLast
      exact ⟨last, hLast, by omega⟩
    · rintro ⟨last, hLast, hOld⟩
      have hSilent := hApart id last hLast
      exact ⟨last, hLast, by omega⟩

/-- With a timeout of 10 seconds, a node that was silent for 20 seconds is not found. -/
theorem shorter_timeout_ignored :
    ¬TimeoutExact ⟨1, 0⟩ [.setHeartbeatTimeout 10, .heartbeat "a" 100] 120 := by
  intro hExact
  have hFound := (hExact "a").mpr ⟨100, rfl, by decide⟩
  rw [Monitor.mem_timeouts] at hFound
  obtain ⟨last, hLast, hOld⟩ := hFound
  cases hLast
  exact absurd hOld (by decide)

end PsRpc
