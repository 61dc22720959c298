import BabelRs.Lib.Run
import BabelRs.Safety.MacCalls

/-!
# What an accepted datagram proves

A `Ledger` is the story of one peer told from the outside: it is folded from the calls
made on a session and the receptions they returned, and never looks at the session.
The stored peer record is shown to agree with the ledger along every run, so every
acceptance is justified by what happened before it.  No assumption is made about the
random source, the digest or the clock.
-/

set_option autoImplicit false

namespace BabelRs

open Lib Mac MacSession

inductive MacCall where
  | sign (packet : List UInt8) (endpoints : DatagramEndpoints) (draw : Draw)
  | receive (packet : List UInt8) (endpoints : DatagramEndpoints) (now : UInt64) (draw : Draw)
  | expire (now : UInt64)

def MacSession.call (digest : MacKey → List UInt8 → List UInt8) (session : MacSession) :
    MacCall → MacSession × List MacReception
  | .sign packet endpoints draw => ((session.sign digest packet endpoints draw).1, [])
  | .receive packet endpoints now draw =>
    ((session.receive digest packet endpoints now draw).1,
      [(session.receive digest packet endpoints now draw).2])
  | .expire now => (session.expire now, [])

/-- The calls made on a new session, what they returned, and the session after them. -/
def MacRun (digest : MacKey → List UInt8 → List UInt8) (config : MacConfig) (maxPeers : Nat) :
    List (MacCall × List MacReception) → MacSession → Prop :=
  Run (fun session => ∃ draw, MacSession.new config maxPeers draw = .ok session)
    fun session call receptions next => session.call digest call = (next, receptions)

/-! ## The ledger of a peer -/

/-- The body of a datagram, empty if it does not parse. -/
def bodyOf (packet : List UInt8) : List (UInt8 × List UInt8) :=
  match bodyEnd packet with
  | .error _ => []
  | .ok stop =>
    match tlvs ((packet.take stop).drop 4) with
    | .error _ => []
    | .ok body => body

structure Ledger where
  /-- The challenge issued most recently and its time, until an acceptance answers it. -/
  challenge : Option (Nonce × UInt64)
  /-- The index of the last acceptance that answered a challenge. -/
  index : Option (List UInt8)
  /-- Channel and counter of every acceptance from that one on. -/
  since : List (Bool × UInt32)
  /-- The time of the last acceptance. -/
  last : Option UInt64

namespace Ledger

def blank : Ledger := ⟨none, none, [], none⟩

/-- The body replies to the unanswered challenge, less than `CHALLENGE_MS` after its issue. -/
def answers (ledger : Ledger) (body : List (UInt8 × List UInt8)) (now : UInt64) : Bool :=
  match ledger.challenge with
  | some (nonce, issued) => decide (now < satAdd issued CHALLENGE_MS) && replies body nonce.val
  | none => false

def accept (ledger : Ledger) (body : List (UInt8 × List UInt8)) (endpoints : DatagramEndpoints)
    (now : UInt64) : Ledger :=
  match packetCounter body with
  | none => ledger
  | some (pc, index) =>
    if ledger.answers body now then
      ⟨none, some index, [(endpoints.multicast, pc)], some now⟩
    else
      { ledger with since := (endpoints.multicast, pc) :: ledger.since, last := some now }

def issue (ledger : Ledger) (reception : MacReception) (draw : Draw) (now : UInt64) : Ledger :=
  match draw with
  | .ok nonce =>
    if reception.Issues nonce then { ledger with challenge := some (nonce, now) } else ledger
  | .error _ => ledger

/-- What one call and its reception add to the ledger of `source`. -/
def note (source : SocketAddr) (ledger : Ledger) : MacCall × List MacReception → Ledger
  | (.receive packet endpoints now draw, [reception]) =>
    if endpoints.source = source then
      if reception.accepted then ledger.accept (bodyOf packet) endpoints now
      else ledger.issue reception draw now
    else ledger
  | _ => ledger

end Ledger

def ledgerOf (source : SocketAddr) (history : List (MacCall × List MacReception)) : Ledger :=
  history.foldl (Ledger.note source) .blank

def MacSession.play (digest : MacKey → List UInt8 → List UInt8) (session : MacSession) :
    List MacCall → MacSession × List (MacCall × List MacReception)
  | [] => (session, [])
  | call :: rest =>
    let (next, receptions) := session.call digest call
    let (final, history) := next.play digest rest
    (final, (call, receptions) :: history)

theorem MacRun.play {digest : MacKey → List UInt8 → List UInt8} {config : MacConfig}
    {maxPeers : Nat} {before : List (MacCall × List MacReception)} {session : MacSession}
    (run : MacRun digest config maxPeers before session) (calls : List MacCall) :
    MacRun digest config maxPeers (before ++ (session.play digest calls).2)
      (session.play digest calls).1 := by
  induction calls generalizing before session with
  | nil => simpa [MacSession.play] using run
  | cons call rest ih =>
    have longer : MacRun digest config maxPeers
        (before ++ [(call, (session.call digest call).2)]) (session.call digest call).1 :=
      .step run rfl
    simpa [MacSession.play] using ih longer

theorem ledgerOf_concat (source : SocketAddr) (history : List (MacCall × List MacReception))
    (record : MacCall × List MacReception) :
    ledgerOf source (history ++ [record]) = (ledgerOf source history).note source record := by
  simp [ledgerOf]

theorem bodyOf_authentic {digest : MacKey → List UInt8 → List UInt8} {config : MacConfig}
    {packet : List UInt8} {endpoints : DatagramEndpoints} {body : List (UInt8 × List UInt8)}
    (authentic : Authentic digest config packet endpoints body) : bodyOf packet = body := by
  obtain ⟨stop, data, trailer, key, framed, parsed, -⟩ := authentic.stop
  simp only [bodyOf, framed, parsed]

/-! ## The stored record agrees with the ledger -/

structure Records (ledger : Ledger) (peer : MacPeer) : Prop where
  challenge : ∀ nonce expires, peer.nonce = some (nonce, expires) →
    ∃ issued, ledger.challenge = some (nonce, issued) ∧ expires = satAdd issued CHALLENGE_MS
  index : ∀ index, peer.index = some index → ledger.index = some index
  counted : ∀ index, peer.index = some index →
    ∀ entry ∈ ledger.since, entry.2 ≤ peer.counter entry.1
  last : ∀ index, peer.index = some index →
    ∃ last, ledger.last = some last ∧ peer.expires = satAdd last EXPIRE_MS
  /-- A peer with a proved index still has the challenge the ledger knows of. -/
  outstanding : ∀ index, peer.index = some index →
    ∀ nonce issued, ledger.challenge = some (nonce, issued) →
      peer.nonce = some (nonce, satAdd issued CHALLENGE_MS)

namespace Records

variable {ledger : Ledger} {peer : MacPeer} {body : List (UInt8 × List UInt8)}
  {endpoints : DatagramEndpoints} {now : UInt64} {pc : UInt32} {index : List UInt8}
  {lastReply : Option UInt64}

theorem met (ledger : Ledger) (now : UInt64) : Records ledger (.met now) where
  challenge nonce expires outstanding := by cases outstanding
  index index proved := by cases proved
  counted index proved := by cases proved
  last index proved := by cases proved
  outstanding index proved := by cases proved

theorem dated (records : Records ledger peer) (lastReply : Option UInt64) :
    Records ledger { peer with lastReply } :=
  ⟨records.challenge, records.index, records.counted, records.last, records.outstanding⟩

theorem challenged (records : Records ledger peer) (nonce : Nonce) :
    Records { ledger with challenge := some (nonce, now) }
      { peer with lastReply, nonce := some (nonce, satAdd now CHALLENGE_MS) } where
  challenge other expires outstanding := by
    obtain ⟨rfl, rfl⟩ := Prod.mk.inj (Option.some.inj outstanding)
    exact ⟨now, rfl, rfl⟩
  index := records.index
  counted := records.counted
  last := records.last
  outstanding _ _ other issued known := by
    obtain ⟨rfl, rfl⟩ := Prod.mk.inj (Option.some.inj known)
    rfl

/-- The peer's own test for an answer finds only answers the ledger knows of. -/
theorem answers_of_success (records : Records ledger peer)
    (succeeds : success body peer now = true) : ledger.answers body now = true := by
  unfold success at succeeds
  split at succeeds
  · rename_i nonce expires outstanding
    obtain ⟨issued, known, rfl⟩ := records.challenge nonce expires outstanding
    simpa only [Ledger.answers, known] using succeeds
  · cases succeeds

/-- And it misses none once the peer has proved an index. -/
theorem success_of_answers (records : Records ledger peer) (proved : peer.index = some index)
    (answers : ledger.answers body now = true) : success body peer now = true := by
  unfold Ledger.answers at answers
  split at answers
  · rename_i nonce issued known
    simpa only [success, records.outstanding index proved nonce issued known] using answers
  · cases answers

theorem answered (records : Records ledger peer) (labelled : packetCounter body = some (pc, index))
    (answers : success body peer now = true) :
    Records (ledger.accept body endpoints now)
      { peer with
        lastReply, nonce := none, index := some index, unicast := pc, multicast := pc
        expires := satAdd now EXPIRE_MS } := by
  have known := records.answers_of_success answers
  simp only [Ledger.accept, labelled, known, if_true]
  exact {
    challenge := fun _ _ outstanding => by cases outstanding
    index := fun _ proved => proved
    counted := fun _ _ entry member => by
      obtain rfl : entry = (endpoints.multicast, pc) := List.mem_singleton.mp member
      simp [MacPeer.counter]
    last := fun _ _ => ⟨now, rfl, rfl⟩
    outstanding := fun _ _ _ _ outstanding => by cases outstanding }

theorem counter_raised (peer : MacPeer) (multicast channel : Bool) :
    MacPeer.counter
      { peer with
        lastReply
        multicast := if multicast then pc else peer.multicast
        unicast := if multicast then peer.unicast else pc
        expires := satAdd now EXPIRE_MS } channel =
      if channel = multicast then pc else peer.counter channel := by
  cases multicast <;> cases channel <;> rfl

theorem counted_accept (records : Records ledger peer)
    (labelled : packetCounter body = some (pc, index)) (noAnswer : success body peer now = false)
    (current : peer.index = some index) (above : peer.counter endpoints.multicast < pc) :
    Records (ledger.accept body endpoints now)
      { peer with
        lastReply
        multicast := if endpoints.multicast then pc else peer.multicast
        unicast := if endpoints.multicast then peer.unicast else pc
        expires := satAdd now EXPIRE_MS } := by
  have unknown : ledger.answers body now = false := by
    by_contra known
    have succeeds := records.success_of_answers current (Bool.not_eq_false _ ▸ known)
    rw [noAnswer] at succeeds
    cases succeeds
  simp only [Ledger.accept, labelled, unknown, Bool.false_eq_true, if_false]
  refine ⟨records.challenge, records.index, ?_, fun _ _ => ⟨now, rfl, rfl⟩, records.outstanding⟩
  intro _ _ entry member
  rw [counter_raised]
  rcases List.mem_cons.mp member with rfl | old
  · simp
  · have bound := records.counted index current entry old
    split
    · rename_i same
      exact UInt32.le_trans (same ▸ bound) (UInt32.le_of_lt above)
    · exact bound

end Records

variable {now : UInt64} {draw : Draw}

theorem Ledger.issue_silent {ledger : Ledger} {reception : MacReception}
    (silent : ∀ nonce, ¬ reception.Issues nonce) :
    ledger.issue reception draw now = ledger := by
  cases draw with
  | error error => rfl
  | ok nonce => simp [Ledger.issue, silent nonce]

variable {source : SocketAddr}

theorem Ledger.note_other {ledger : Ledger} {packet : List UInt8} {endpoints : DatagramEndpoints}
    {receptions : List MacReception} (other : endpoints.source ≠ source) :
    ledger.note source (.receive packet endpoints now draw, receptions) = ledger := by
  unfold note
  split
  · rename_i same
    cases same
    rw [if_neg other]
  · rfl

section Outcomes
variable {session next : MacSession} {packet : List UInt8} {body : List (UInt8 × List UInt8)}
  {endpoints : DatagramEndpoints} {now : UInt64} {draw : Draw} {peer : MacPeer}
  {reception : MacReception} {ledger : Ledger}

/-- Every outcome stores one record, for the source, that agrees with the ledger after it. -/
theorem outcome_recorded
    (outcome : Outcome session body endpoints now draw peer next reception)
    (parsed : bodyOf packet = body) (records : Records ledger peer) :
    ∃ after, next.peers = session.peers.insert endpoints.source after ∧
      next.config = session.config ∧ next.maxPeers = session.maxPeers ∧
      Records (ledger.note endpoints.source (.receive packet endpoints now draw, [reception]))
        after := by
  simp only [Ledger.note, if_true, parsed]
  cases outcome with
  | kept refused silent =>
    refine ⟨_, rfl, rfl, rfl, ?_⟩
    rw [refused, Ledger.issue_silent silent]
    exact records.dated _
  | challenged drawn labelled unproved noAnswer refused issued =>
    refine ⟨_, rfl, rfl, rfl, ?_⟩
    rename_i nonce pc index
    have noted : ledger.issue reception draw now =
        { ledger with challenge := some (nonce, now) } := by
      rw [drawn]
      simp only [Ledger.issue, (issued nonce).mpr rfl, if_true]
    rw [refused, if_neg Bool.false_ne_true, noted]
    exact records.challenged nonce
  | answered labelled answers accepted silent =>
    refine ⟨_, rfl, rfl, rfl, ?_⟩
    rw [accepted, if_pos rfl]
    exact records.answered labelled answers
  | counted labelled noAnswer current above accepted silent =>
    refine ⟨_, rfl, rfl, rfl, ?_⟩
    rw [accepted, if_pos rfl]
    exact records.counted_accept labelled noAnswer current above

/-- The body replies to the challenge issued last, which nothing has answered yet and which
is less than 30 seconds old. -/
def AnswersChallenge (ledger : Ledger) (body : List (UInt8 × List UInt8)) (now : UInt64) : Prop :=
  ∃ nonce issued, ledger.challenge = some (nonce, issued) ∧ replies body nonce.val = true ∧
    now.toNat < issued.toNat + 30000

/-- The datagram carries the index of the last answered challenge, the last acceptance is less
than 300 seconds old, and the counter is above all accepted on its channel since that
challenge. -/
def ContinuesSession (ledger : Ledger) (multicast : Bool) (now : UInt64) (pc : UInt32)
    (index : List UInt8) : Prop :=
  ledger.index = some index ∧
    (∃ last, ledger.last = some last ∧ now.toNat < last.toNat + 300000) ∧
    ∀ entry ∈ ledger.since, entry.1 = multicast → entry.2 < pc

theorem lt_of_lt_satAdd {now start span : UInt64} (before : now < satAdd start span) :
    now.toNat < start.toNat + span.toNat := by
  rw [UInt64.lt_iff_toNat_lt, toNat_satAdd] at before
  omega

theorem outcome_justified
    (outcome : Outcome session body endpoints now draw peer next reception)
    (accepted : reception.accepted = true) (records : Records ledger peer)
    (alive : ∀ index, peer.index = some index → now < peer.expires) :
    ∃ pc index, packetCounter body = some (pc, index) ∧
      (AnswersChallenge ledger body now ∨
        ContinuesSession ledger endpoints.multicast now pc index) := by
  cases outcome with
  | kept refused => rw [refused] at accepted; cases accepted
  | challenged _ _ _ _ refused => rw [refused] at accepted; cases accepted
  | answered labelled answers =>
    refine ⟨_, _, labelled, .inl ?_⟩
    unfold success at answers
    split at answers
    · rename_i nonce expires outstanding
      obtain ⟨issued, known, rfl⟩ := records.challenge nonce expires outstanding
      obtain ⟨live, answered⟩ := Bool.and_eq_true_iff.mp answers
      exact ⟨nonce, issued, known, answered, lt_of_lt_satAdd (of_decide_eq_true live)⟩
    · cases answers
  | counted labelled noAnswer current above =>
    refine ⟨_, _, labelled, .inr ⟨records.index _ current, ?_, ?_⟩⟩
    · obtain ⟨last, known, expires⟩ := records.last _ current
      exact ⟨last, known, lt_of_lt_satAdd (expires ▸ alive _ current)⟩
    · intro entry member same
      have bound := records.counted _ current entry member
      exact UInt32.lt_of_le_of_lt (same ▸ bound) above

end Outcomes

/-! ## Runs -/

/-- The stored records agree with the ledgers, and the table respects its limit. -/
structure Recorded (config : MacConfig) (maxPeers : Nat)
    (history : List (MacCall × List MacReception)) (session : MacSession) : Prop where
  config : session.config = config
  limit : session.maxPeers = maxPeers
  room : session.peers.len ≤ maxPeers
  agrees : ∀ source peer, session.peers.get? source = some peer →
    Records (ledgerOf source history) peer

namespace Recorded

variable {digest : MacKey → List UInt8 → List UInt8} {config : MacConfig} {maxPeers : Nat}
  {history : List (MacCall × List MacReception)} {session : MacSession}

theorem start (created : MacSession.new config maxPeers draw = .ok session) :
    Recorded config maxPeers [] session := by
  cases draw with
  | error error => cases created
  | ok index =>
    cases created
    exact ⟨rfl, rfl, Nat.zero_le _, fun source peer known => by cases known⟩

theorem expire (recorded : Recorded config maxPeers history session) (now : UInt64) :
    Recorded config maxPeers history (session.expire now) where
  config := recorded.config
  limit := recorded.limit
  room := Nat.le_trans (AssocMap.len_retain_le _ _) recorded.room
  agrees source peer known := recorded.agrees source peer (get?_expire.mp known).1

/-- The record a datagram is judged by agrees with the ledger. -/
theorem met (recorded : Recorded config maxPeers history session) {peer : MacPeer}
    (met : Met session source now peer) :
    Records (ledgerOf source history) peer := by
  cases met with
  | again known => exact recorded.agrees source peer known
  | first unknown room => exact Records.met _ now

theorem room_put (recorded : Recorded config maxPeers history session) {peer : MacPeer}
    (met : Met session source now peer) (after : MacPeer) :
    (session.peers.insert source after).len ≤ maxPeers := by
  cases met with
  | again known => exact (AssocMap.len_insert_of_some known after).trans_le recorded.room
  | first unknown room =>
    exact Nat.le_trans (AssocMap.len_insert_le _ _ _) (recorded.limit ▸ room)

theorem receive (strict : config.isStrict = true)
    (recorded : Recorded config maxPeers history session) (packet : List UInt8)
    (endpoints : DatagramEndpoints) (now : UInt64) (draw : Draw) :
    Recorded config maxPeers
      (history ++ [(.receive packet endpoints now draw,
        [(session.receive digest packet endpoints now draw).2])])
      (session.receive digest packet endpoints now draw).1 := by
  have aged := recorded.expire now
  rcases receive_cases digest (recorded.config ▸ strict) packet endpoints now draw with
    quiet | ⟨body, peer, authentic, met, outcome⟩
  · rw [quiet]
    refine ⟨aged.config, aged.limit, aged.room, fun source peer known => ?_⟩
    rw [ledgerOf_concat]
    by_cases here : endpoints.source = source
    · simp only [Ledger.note, here, if_true, Bool.false_eq_true, if_false,
        Ledger.issue_silent (show ∀ nonce, ¬ MacReception.Issues ⟨false, []⟩ nonce from
          fun _ => List.not_mem_nil)]
      exact aged.agrees source peer known
    · rw [Ledger.note_other here]
      exact aged.agrees source peer known
  · obtain ⟨after, stored, sameConfig, sameLimit, agrees⟩ :=
      outcome_recorded outcome (bodyOf_authentic authentic) (aged.met met)
    refine ⟨sameConfig.trans aged.config, sameLimit.trans aged.limit,
      stored ▸ aged.room_put met after, fun source other known => ?_⟩
    rw [ledgerOf_concat]
    rw [stored, AssocMap.get?_insert] at known
    by_cases here : endpoints.source = source
    · rw [if_pos here] at known
      obtain rfl := Option.some.inj known
      exact here ▸ agrees
    · rw [if_neg here] at known
      rw [Ledger.note_other here]
      exact aged.agrees source other known

theorem of_run (strict : config.isStrict = true)
    (run : MacRun digest config maxPeers history session) :
    Recorded config maxPeers history session := by
  refine Run.invariant (Recorded config maxPeers) (fun s begins => ?_) ?_ run
  · obtain ⟨draw, created⟩ := begins
    exact start created
  · intro history session call receptions next recorded taken
    cases call with
    | sign packet endpoints draw =>
      obtain ⟨rfl, rfl⟩ := Prod.mk.inj taken
      obtain ⟨samePeers, sameConfig, sameLimit⟩ :=
        sign_peers digest session packet endpoints draw
      refine ⟨sameConfig.trans recorded.config, sameLimit.trans recorded.limit,
        samePeers ▸ recorded.room, fun source peer known => ?_⟩
      rw [ledgerOf_concat]
      exact recorded.agrees source peer (samePeers ▸ known)
    | receive packet endpoints now draw =>
      obtain ⟨rfl, rfl⟩ := Prod.mk.inj taken
      exact recorded.receive strict packet endpoints now draw
    | expire now =>
      obtain ⟨rfl, rfl⟩ := Prod.mk.inj taken
      have aged := recorded.expire now
      refine ⟨aged.config, aged.limit, aged.room, fun source peer known => ?_⟩
      rw [ledgerOf_concat]
      exact aged.agrees source peer known

/-- Only an authentic datagram from a source makes a record for it. -/
theorem created (strict : config.isStrict = true)
    (recorded : Recorded config maxPeers history session) {call : MacCall}
    (before : session.peers.get? source = none)
    (after : (session.call digest call).1.peers.get? source ≠ none) :
    ∃ packet endpoints now draw body, call = .receive packet endpoints now draw ∧
      endpoints.source = source ∧ Authentic digest config packet endpoints body := by
  have aged : ∀ now, (session.expire now).peers.get? source = none := by
    intro now
    simp [MacSession.expire, before]
  cases call with
  | sign packet endpoints draw =>
    rw [MacSession.call, (sign_peers digest session packet endpoints draw).1] at after
    exact absurd before after
  | expire now => exact absurd (aged now) after
  | receive packet endpoints now draw =>
    rw [MacSession.call] at after
    rcases receive_cases digest (recorded.config ▸ strict) packet endpoints now draw
      with quiet | ⟨body, peer, authentic, met, outcome⟩
    · rw [quiet] at after
      exact absurd (aged now) after
    · refine ⟨packet, endpoints, now, draw, body, rfl, ?_, recorded.config ▸ authentic⟩
      obtain ⟨stored, kept, -⟩ := outcome_recorded outcome (bodyOf_authentic authentic)
        ((recorded.expire now).met met)
      by_contra other
      rw [kept, AssocMap.get?_insert_of_ne _ _ other] at after
      exact after (aged now)

end Recorded

/-- Every acceptance of a strict session is justified by the calls before it, the peer table
stays within its limit, and only datagrams with a valid MAC enter it. -/
theorem acceptance_is_justified {digest : MacKey → List UInt8 → List UInt8} {config : MacConfig}
    {maxPeers : Nat} {history : List (MacCall × List MacReception)} {session : MacSession}
    (strict : config.isStrict = true) (run : MacRun digest config maxPeers history session) :
    session.peers.len ≤ maxPeers ∧
    (∀ call source, session.peers.get? source = none →
      (session.call digest call).1.peers.get? source ≠ none →
      ∃ packet endpoints now draw body, call = .receive packet endpoints now draw ∧
        endpoints.source = source ∧ Authentic digest config packet endpoints body) ∧
    (∀ packet endpoints now draw,
      (session.receive digest packet endpoints now draw).2.accepted = true →
      ∃ body pc index, Authentic digest config packet endpoints body ∧
        packetCounter body = some (pc, index) ∧
        (AnswersChallenge (ledgerOf endpoints.source history) body now ∨
          ContinuesSession (ledgerOf endpoints.source history) endpoints.multicast now pc
            index)) := by
  have recorded := Recorded.of_run strict run
  refine ⟨recorded.room, fun call source => recorded.created strict, ?_⟩
  intro packet endpoints now draw accepted
  rcases receive_cases digest (recorded.config ▸ strict) packet endpoints now draw with
    quiet | ⟨body, peer, authentic, met, outcome⟩
  · rw [quiet] at accepted
    cases accepted
  · have alive : ∀ index, peer.index = some index → now < peer.expires := by
      intro index proved
      cases met with
      | again known => exact (get?_expire.mp known).2
      | first unknown room => cases proved
    obtain ⟨pc, index, labelled, justified⟩ :=
      outcome_justified outcome accepted ((recorded.expire now).met met) alive
    exact ⟨body, pc, index, recorded.config ▸ authentic, labelled, justified⟩

/-! ## A handshake -/

namespace Handshake

/-- A digest that hides nothing, for evaluating concrete runs. -/
def openDigest (key : MacKey) (data : List UInt8) : List UInt8 := key.bytes ++ data

def key : MacKey := ⟨.hmacSha256, [7], by decide, by decide, by decide⟩

def config : MacConfig := ⟨[key], false, by decide, by decide⟩

def nonce (octet : UInt8) : Nonce := ⟨List.replicate 16 octet, by simp⟩

def session (octet : UInt8) : MacSession := ⟨config, nonce octet, 0, .empty, 16, none⟩

def alice : SocketAddr := .v4 0xc0000201 6696

def bob : SocketAddr := .v4 0xc0000202 6696

def toBob : DatagramEndpoints := ⟨alice, bob⟩

def hello : List UInt8 := [42, 2, 0, 8, 4, 6, 0, 0, 0, 1, 1, 144]

/-- What the session sends to the peer next, and the session after it. -/
def send (session : MacSession) (packet : List UInt8) : MacSession × List UInt8 :=
  match session.sign openDigest packet toBob (.error .entropy) with
  | (next, .ok datagram) => (next, datagram)
  | (next, .error _) => (next, [])

def reply (octet : UInt8) : List UInt8 := control REPLY (nonce octet).val

end Handshake

open Handshake in
theorem challenge_reply_is_justified :
    let sent := send (session 1) hello
    let answer := (send sent.1 (reply 9)).2
    let calls := [MacCall.receive sent.2 toBob 0 (.ok (nonce 9))]
    let played := (session 2).play openDigest calls
    (played.1.receive openDigest answer toBob 20 (.error .entropy)).2.accepted = true ∧
      ∃ body pc index, Authentic openDigest config answer toBob body ∧
        packetCounter body = some (pc, index) ∧
        (AnswersChallenge (ledgerOf alice played.2) body 20 ∨
          ContinuesSession (ledgerOf alice played.2) toBob.multicast 20 pc index) := by
  intro sent answer calls played
  have run : MacRun openDigest config 16 played.2 played.1 :=
    MacRun.play (.start ⟨.ok (nonce 2), rfl⟩) calls
  have accepted :
      (played.1.receive openDigest answer toBob 20 (.error .entropy)).2.accepted = true := by
    decide +kernel
  exact ⟨accepted,
    (acceptance_is_justified (by decide) run).2.2 answer toBob 20 (.error .entropy) accepted⟩

end BabelRs
