import BabelRs.Safety.Run

/-!
# Link sensing leaves the routing tables alone

Hello, IHU and RTT observations, aging and expiry change neighbours and
candidates only; garbage collection is the one silent change of the source
table and the holds.
-/

set_option autoImplicit false

namespace BabelRs

open Lib

namespace Engine

variable {P M : Type}

/-- Everything but neighbours and candidates. -/
structure SensingFrame (s t : Engine P M) : Prop where
  config : t.config = s.config
  interfaces : t.interfaces = s.interfaces
  feasible : t.feasible = s.feasible
  originated : t.originated = s.originated
  selected : t.selected = s.selected
  pendingSeqno : t.pendingSeqno = s.pendingSeqno
  tombstones : t.tombstones = s.tombstones
  advertisedUntil : t.advertisedUntil = s.advertisedUntil
  generation : t.generation = s.generation
  sequenceNumber : t.sequenceNumber = s.sequenceNumber

theorem SensingFrame.refl (s : Engine P M) : SensingFrame s s :=
  ⟨rfl, rfl, rfl, rfl, rfl, rfl, rfl, rfl, rfl, rfl⟩

theorem SensingFrame.trans {s middle t : Engine P M} (first : SensingFrame s middle)
    (second : SensingFrame middle t) : SensingFrame s t where
  config := second.config.trans first.config
  interfaces := second.interfaces.trans first.interfaces
  feasible := second.feasible.trans first.feasible
  originated := second.originated.trans first.originated
  selected := second.selected.trans first.selected
  pendingSeqno := second.pendingSeqno.trans first.pendingSeqno
  tombstones := second.tombstones.trans first.tombstones
  advertisedUntil := second.advertisedUntil.trans first.advertisedUntil
  generation := second.generation.trans first.generation
  sequenceNumber := second.sequenceNumber.trans first.sequenceNumber

theorem sensing_foldl {α β : Type} (step : β → α → β) (engineOf : β → Engine P M)
    (each : ∀ state item, SensingFrame (engineOf state) (engineOf (step state item)))
    (items : List α) (state : β) :
    SensingFrame (engineOf state) (engineOf (items.foldl step state)) := by
  induction items generalizing state with
  | nil => exact SensingFrame.refl _
  | cons item rest ih => exact (each state item).trans (ih (step state item))

section Metric
variable [NeighborMetric M]

theorem recomputeCandidateMetrics_sensing (only : Option NeighborKey) (s : Engine P M) :
    SensingFrame s (s.recomputeCandidateMetrics only).1 :=
  ⟨rfl, rfl, rfl, rfl, rfl, rfl, rfl, rfl, rfl, rfl⟩

theorem recomputeEach_sensing (keys : List NeighborKey) (s : Engine P M) :
    SensingFrame s (s.recomputeEach keys).1 := by
  refine sensing_foldl _ Prod.fst (fun state key => ?_) keys (s, false)
  exact recomputeCandidateMetrics_sensing (some key) state.1

theorem observeIhus_sensing (key : NeighborKey) (localAddresses : List IpAddr) (now : UInt64)
    (tlvs : List Tlv) (s : Engine P M) :
    SensingFrame s (s.observeIhus key localAddresses now tlvs) := by
  refine sensing_foldl _ id (fun state tlv => ?_) tlvs s
  cases tlv with
  | ihu address rxcost intervalCs subTlvs =>
    simp only [id]
    split
    · exact ⟨rfl, rfl, rfl, rfl, rfl, rfl, rfl, rfl, rfl, rfl⟩
    · exact SensingFrame.refl _
  | _ => exact SensingFrame.refl _

variable [MetricProfile P M]

theorem observeHellos_sensing (profile : P) (key : NeighborKey) (helloIntervalCs : UInt16)
    (receiveTimestamp : UInt32) (now : UInt64) (tlvs : List Tlv) (s : Engine P M) :
    SensingFrame s (s.observeHellos profile key helloIntervalCs receiveTimestamp now tlvs).1 := by
  refine sensing_foldl _ Prod.fst (fun state tlv => ?_) tlvs (s, false)
  cases tlv with
  | hello unicast seqno intervalCs subTlvs =>
    exact ⟨rfl, rfl, rfl, rfl, rfl, rfl, rfl, rfl, rfl, rfl⟩
  | _ => exact SensingFrame.refl _

theorem observeRtt_sensing (profile : P) (key : NeighborKey) (sample : Option UInt32)
    (now : UInt64) (s : Engine P M) : SensingFrame s (s.observeRtt profile key sample now) := by
  unfold observeRtt
  cases sample with
  | none => exact SensingFrame.refl s
  | some sample =>
    simp only
    split
    · exact ⟨rfl, rfl, rfl, rfl, rfl, rfl, rfl, rfl, rfl, rfl⟩
    · exact SensingFrame.refl s

theorem observe_sensing (state : InterfaceState P) (key : NeighborKey) (packet : Packet)
    (now : UInt64) (receiveTimestamp : UInt32) (s : Engine P M) :
    SensingFrame s (s.observe state key packet now receiveTimestamp).1 := by
  have heard := ((observeHellos_sensing state.policy.metric key state.policy.helloIntervalCs
    receiveTimestamp now packet.tlvs s).trans (observeRtt_sensing state.policy.metric key
      (packet.rttSample state.localAddresses receiveTimestamp) now _)).trans
    (observeIhus_sensing key state.localAddresses now packet.tlvs _)
  simp only [observe]
  split
  · exact heard.trans (recomputeCandidateMetrics_sensing (some key) _)
  · exact heard

/-- A packet is dropped, at most counted, or observed and then processed. -/
theorem receive_cases (order : HashOrder) (interface : InterfaceName) (source : IpAddr)
    (packet : Packet) (now : UInt64) (receiveTimestamp : UInt32) (s : Engine P M) :
    (∃ rejections, receive order interface source packet now receiveTimestamp s =
        ({ s with rejections := rejections }, [])) ∨
      ∃ state, s.interfaces.get? interface = some state ∧
        state.policy.controlTransport.multicast.isIpv4 = source.isIpv4 ∧
        (s.neighbours.containsKey ⟨interface, source⟩ = true ∨
          s.neighbours.len < s.config.limits.maxNeighbors ∨ packet.hasHello = false) ∧
        receive order interface source packet now receiveTimestamp s =
          Effect.andThen
            (Effect.when
              (fun _ => (s.observe state ⟨interface, source⟩ packet now receiveTimestamp).2.2)
              (ihuAction ⟨interface, source⟩ now none))
            (receiveRoutes order ⟨interface, source⟩ now packet.tlvs
              (s.observe state ⟨interface, source⟩ packet now receiveTimestamp).2.1)
            (s.observe state ⟨interface, source⟩ packet now receiveTimestamp).1 := by
  unfold receive
  cases up : s.interfaces.get? interface with
  | none => exact Or.inl ⟨s.rejections, rfl⟩
  | some state =>
    simp only
    split
    · exact Or.inl ⟨s.rejections, rfl⟩
    next family =>
      split
      · exact Or.inl ⟨_, rfl⟩
      next room =>
        refine Or.inr ⟨state, rfl, by simpa using family, ?_, rfl⟩
        simpa [or_assoc, Classical.or_iff_not_imp_left] using room

end Metric

/-! ## Aging -/

section Aging
variable [NeighborMetric M] (order : HashOrder) (now : UInt64) (s : Engine P M)

/-- The neighbours and candidates of a tick before garbage collection, with the
neighbours whose metrics are to be recomputed. -/
def agedTables : Engine P M × List NeighborKey :=
  let aged := s.ageNeighbours now
  let dropped := aged.1.dropSilentNeighbours
  let unheard := dropped.1.expireIhus now
  let expired := unheard.1.expireCandidates now
  ((expired.1.requestRefreshes order now).1, aged.2 ++ unheard.2)

/-- The silent half of a tick: sensing, garbage collection, recomputation. -/
theorem ageState_engine :
    (s.ageState order now).engine =
      (((s.agedTables order now).1.collectExpired now).recomputeEach
        (s.agedTables order now).2).1 := rfl

theorem ageState_sensing :
    SensingFrame ((s.agedTables order now).1.collectExpired now) (s.ageState order now).engine :=
  recomputeEach_sensing _ _

theorem ageState_feasible :
    (s.ageState order now).engine.feasible =
      s.feasible.retain fun _ source => decide (source.expiresMs ≥ now) :=
  (ageState_sensing order now s).feasible

theorem ageState_tombstones :
    (s.ageState order now).engine.tombstones =
      s.tombstones.retain fun _ expires => decide (expires ≥ now) :=
  (ageState_sensing order now s).tombstones

theorem ageState_selected : (s.ageState order now).engine.selected = s.selected :=
  (ageState_sensing order now s).selected

end Aging

end Engine

end BabelRs
