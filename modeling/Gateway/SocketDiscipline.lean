import Mathlib
import Gateway.AuthorizationGate
import Gateway.UpstreamTimeouts
import Gateway.Library.Handles
import Gateway.HandlerRules

/-! The descriptors, address lists and replies of a connection, over every run. -/
namespace Gateway

open Program Search Handles

variable {s u : Socket} {cfg : Config} {req : HttpRequest} {evs : Trace} {timeoutMs : Int}

inductive Handle where
  | connection (s : Socket)
  | addresses (list : List AddrInfo)
  deriving DecidableEq

/-- What a call does to a descriptor or to an address list. -/
def access : Event Op Res → Access Handle
  | ⟨.socket _, some u⟩ => .opens (.connection u)
  | ⟨.getaddrinfo _ _, r⟩ => if r.list = [] then .idle else .opens (.addresses r.list)
  | ⟨.closeSocket s, _⟩ => .closes (.connection s)
  | ⟨.freeaddrinfo list, _⟩ => .closes (.addresses list)
  | ⟨.recv s _, _⟩ | ⟨.send s _ _, _⟩ | ⟨.getFl s, _⟩ | ⟨.setFl s _, _⟩ | ⟨.connect s _, _⟩
  | ⟨.select s _, _⟩ | ⟨.getSoError s, _⟩ | ⟨.setTimeout s _ _, _⟩ => .uses (.connection s)
  | _ => .idle

/-- The client is found to have disconnected. -/
def isDisconnect (s : Socket) : Event Op Res → Bool
  | ⟨.recv s' _, .closed⟩ | ⟨.recv s' _, .error _⟩ => s' = s
  | _ => false

/-- What a handler holds, has replied and has found out, part way through a run. -/
structure Ledger where
  held : Finset Handle
  replies : List (Socket × HttpResponse)
  gone : Bool

def Ledger.step (s : Socket) (g : Ledger) (e : Event Op Res) : Option Ledger :=
  (touch g.held (access e)).map fun held =>
    { held, replies := g.replies ++ (replyOf e).toList, gone := g.gone || isDisconnect s e }

/-- The operating system does not hand out the client's descriptor while it is open. -/
def NotHandedOut (s : Socket) (e : Event Op Res) : Prop := ∀ ai, e ≠ ⟨.socket ai, some s⟩

/-- The ledger of the connection of a client. -/
def connectionMonitor (s : Socket) : Monitor Op Res Ledger where
  promised := NotHandedOut s
  step := Ledger.step s

section steps
variable {g : Ledger} {e : Event Op Res} {h : Handle}

theorem step_opens (ha : access e = .opens h) (hfree : h ∉ g.held) (hreply : replyOf e = none)
    (hgone : isDisconnect s e = false) :
    (connectionMonitor s).step g e = some { g with held := insert h g.held } := by
  simp [connectionMonitor, Ledger.step, ha, touch, hfree, hreply, hgone]

theorem step_closes (ha : access e = .closes h) (hheld : h ∈ g.held) (hreply : replyOf e = none)
    (hgone : isDisconnect s e = false) :
    (connectionMonitor s).step g e = some { g with held := g.held.erase h } := by
  simp [connectionMonitor, Ledger.step, ha, touch, hheld, hreply, hgone]

theorem step_uses (ha : access e = .uses h) (hheld : h ∈ g.held) (hreply : replyOf e = none)
    (hgone : isDisconnect s e = false) : (connectionMonitor s).step g e = some g := by
  simp [connectionMonitor, Ledger.step, ha, touch, hheld, hreply, hgone]

theorem step_idle (ha : access e = .idle) (hreply : replyOf e = none)
    (hgone : isDisconnect s e = false) : (connectionMonitor s).step g e = some g := by
  simp [connectionMonitor, Ledger.step, ha, touch, hreply, hgone]

end steps

/-- Calls on a socket in hand, other than the client's, leave the ledger as it is. -/
theorem step_onSocket {g : Ledger} {o : Op} (hu : Handle.connection u ∈ g.held) (hne : u ≠ s)
    (ho : OnSocket u o) (r : Res o) : (connectionMonitor s).step g ⟨o, r⟩ = some g := by
  cases o with
  | send s' data flags =>
    obtain ⟨rfl, -⟩ := ho
    exact step_uses rfl hu rfl rfl
  | recv s' len =>
    obtain rfl := ho
    refine step_uses rfl hu rfl ?_
    cases r <;> simp [isDisconnect, hne]
  | getFl s' => obtain rfl := ho; exact step_uses rfl hu rfl rfl
  | setFl s' flags => obtain rfl := ho; exact step_uses rfl hu rfl rfl
  | connect s' ai => obtain rfl := ho; exact step_uses rfl hu rfl rfl
  | select s' ms => obtain rfl := ho; exact step_uses rfl hu rfl rfl
  | getSoError s' => obtain rfl := ho; exact step_uses rfl hu rfl rfl
  | setTimeout s' opt ms => obtain rfl := ho; exact step_uses rfl hu rfl rfl
  | _ => exact ho.elim

theorem step_disconnect {g : Ledger} {e : Event Op Res} (hs : Handle.connection s ∈ g.held)
    (ha : access e = .uses (.connection s)) (hgone : isDisconnect s e = true)
    (hreply : replyOf e = none) :
    (connectionMonitor s).step g e = some { g with gone := true } := by
  simp [connectionMonitor, Ledger.step, ha, touch, hs, hreply, hgone]

/-- The ledger while `forwardRequest` holds an address list and a socket. -/
def forwarding (g : Ledger) (list : List AddrInfo) (so : Option Socket) : Ledger :=
  let lists := if list = [] then g.held else insert (.addresses list) g.held
  { g with held := so.elim lists fun u => insert (.connection u) lists }

theorem forwarding_rules {g : Ledger} (hheld : g.held ⊆ {.connection s}) :
    UpstreamRules (connectionMonitor s) (forwarding g) (· ≠ s) := by
  have hlist : ∀ list, Handle.addresses list ∉ g.held := by
    intro list hl
    simpa using hheld hl
  have hfree : ∀ list u, u ≠ s → Handle.connection u ∉ (forwarding g list none).held := by
    intro list u hne hmem
    have hu : Handle.connection u ∈ g.held := by
      simp only [forwarding, Option.elim_none] at hmem
      split at hmem
      · exact hmem
      · exact Finset.mem_of_mem_insert_of_ne hmem (by simp)
    exact hne (by simpa using hheld hu)
  constructor
  case mark => exact fun _ _ _ _ => step_idle rfl rfl rfl
  case resolve =>
    intro host port r
    by_cases hempty : r.list = []
    · rw [hempty]
      exact step_idle (by simp [access, hempty]) rfl rfl
    · have hopens : access ⟨.getaddrinfo host port, r⟩ = .opens (.addresses r.list) := by
        simp [access, hempty]
      simp only [forwarding, hempty, if_true, if_false, Option.elim_none]
      exact step_opens hopens (hlist r.list) rfl rfl
  case free =>
    intro list so hne
    have herase := Finset.erase_insert (hlist list)
    cases so with
    | none =>
      have hstep := @step_closes s (forwarding g list none) ⟨.freeaddrinfo list, ()⟩
        (.addresses list) rfl (by simp [forwarding, hne]) rfl rfl
      simpa [forwarding, hne, herase] using hstep
    | some u =>
      have hstep := @step_closes s (forwarding g list (some u)) ⟨.freeaddrinfo list, ()⟩
        (.addresses list) rfl (by simp [forwarding, hne]) rfl rfl
      simpa [forwarding, hne, herase, Finset.erase_insert_of_ne] using hstep
  case noSocket => exact fun _ _ => step_idle rfl rfl rfl
  case socket =>
    intro list ai u hpromised
    have hne : u ≠ s := by
      rintro rfl
      exact hpromised ai rfl
    exact ⟨hne, step_opens rfl (hfree list u hne) rfl rfl⟩
  case uses => exact fun _ _ _ r hne ho => step_onSocket (Finset.mem_insert_self _ _) hne ho r
  case close =>
    intro list u hne
    have herase : (forwarding g list (some u)).held.erase (.connection u) =
        (forwarding g list none).held := Finset.erase_insert (hfree list u hne)
    have hstep := @step_closes s (forwarding g list (some u)) ⟨.closeSocket u, ()⟩
      (.connection u) rfl (Finset.mem_insert_self _ _) rfl rfl
    rw [herase] at hstep
    exact hstep

/-- The ledger when the handler starts. -/
def startLedger (s : Socket) : Ledger where
  held := {.connection s}
  replies := []
  gone := false

/-- Nothing is held any more, and there was one reply unless the client had gone. -/
def Settled (s : Socket) (g : Ledger) : Prop :=
  g.held = ∅ ∧ if g.gone then g.replies = [] else ∃ resp, g.replies = [(s, resp)]

/-- The ledger once a reply has been made. -/
def repliedLedger (s : Socket) (resp : HttpResponse) : Ledger :=
  { startLedger s with replies := [(s, resp)] }

theorem connection_rules (s : Socket) (cfg : Config) :
    ClientRules (connectionMonitor s) s cfg (startLedger s) { startLedger s with gone := true }
      (repliedLedger s) (Settled s) := by
  have hs : Handle.connection s ∈ (startLedger s).held := Finset.mem_singleton_self _
  constructor
  case data => exact fun _ _ _ _ => step_uses rfl hs rfl rfl
  case closed => exact fun _ => step_disconnect hs rfl (by simp [isDisconnect]) rfl
  case error => exact fun _ _ => step_disconnect hs rfl (by simp [isDisconnect]) rfl
  case allow => exact fun _ _ => step_idle rfl rfl rfl
  case verifyJwt => exact fun _ _ _ _ => step_idle rfl rfl rfl
  case forward =>
    intro method target req auth _
    have hrules := @forwarding_rules s (startLedger s) (Finset.Subset.refl _)
    exact forwardRequest_wp hrules _ _ _ _ _
  case reply =>
    intro resp _
    simp [connectionMonitor, Ledger.step, access, touch, replyOf, isDisconnect, repliedLedger,
      startLedger]
  case send => exact fun _ _ _ => step_uses rfl hs rfl rfl
  case close =>
    intro resp
    refine ⟨_, step_closes rfl hs rfl rfl, ?_⟩
    exact ⟨by simp [repliedLedger, startLedger], by simp [repliedLedger, startLedger]⟩
  case hangUp =>
    refine ⟨_, step_closes rfl hs rfl rfl, ?_⟩
    exact ⟨by simp [startLedger], by simp [startLedger]⟩

/-- What the ledger says about the trace that it followed. -/
theorem follow_ledger {g g' : Ledger} (h : (connectionMonitor s).follow g evs = some g') :
    heldAfter access g.held evs = some g'.held ∧ g'.replies = g.replies ++ repliesOf evs ∧
      g'.gone = (g.gone || evs.any (isDisconnect s)) := by
  induction evs generalizing g with
  | nil =>
    cases h
    simp [heldAfter]
  | cons e evs ih =>
    obtain ⟨g₁, hstep, hrest⟩ := Option.bind_eq_some_iff.mp h
    obtain ⟨held, htouch, rfl⟩ := Option.map_eq_some_iff.mp hstep
    obtain ⟨hheld, hreplies, hgone⟩ := ih hrest
    refine ⟨?_, ?_, ?_⟩
    · rw [heldAfter, htouch]
      exact hheld
    · rw [hreplies, repliesOf_cons, List.append_assoc]
    · rw [hgone, List.any_cons, Bool.or_assoc]

/-- What is opened is released once after that, and not touched again. -/
def ReleasesAll (evs : Trace) : Prop :=
  ∀ pre e post h, evs = pre ++ e :: post → access e = .opens h → ReleasedOnce access h post

/-- The discipline of a whole connection. -/
structure Disciplined (s : Socket) (evs : Trace) : Prop where
  client : ∃ mid rest, evs = mid ++ ⟨.closeSocket s, ()⟩ :: rest ∧
    (∀ e ∈ mid, e.op ≠ .closeSocket s) ∧
    ∀ e ∈ rest, access e ≠ .closes (.connection s) ∧ access e ≠ .uses (.connection s)
  replied : if ∃ e ∈ evs, isDisconnect s e then repliesOf evs = []
    else ∃ resp, repliesOf evs = [(s, resp)]
  released : ReleasesAll evs

theorem op_of_closes {e : Event Op Res} (h : access e = .closes (.connection s)) :
    e = ⟨.closeSocket s, ()⟩ := by
  obtain ⟨o, r⟩ := e
  cases o with
  | closeSocket s' =>
    cases h
    rfl
  | socket ai => cases r <;> cases h
  | getaddrinfo host port =>
    simp only [access] at h
    split at h <;> cases h
  | _ => cases h

theorem op_of_opens {e : Event Op Res} (h : access e = .opens (.connection s)) :
    ∃ ai, e = ⟨.socket ai, some s⟩ := by
  obtain ⟨o, r⟩ := e
  cases o with
  | socket ai =>
    cases r with
    | none => cases h
    | some u =>
      cases h
      exact ⟨ai, rfl⟩
  | getaddrinfo host port =>
    simp only [access] at h
    split at h <;> cases h
  | _ => cases h

/-- A program that settles its ledger keeps the discipline in every run. -/
theorem disciplined_of_settles {p : Io Unit} (hrun : p.Runs evs ())
    (hp : (connectionMonitor s).wp p (fun _ => Settled s) (startLedger s))
    (hkept : ∀ e ∈ evs, NotHandedOut s e) : Disciplined s evs := by
  obtain ⟨g', hfollow, hempty, hsettled⟩ := Monitor.follow_of_wp hp hrun hkept
  obtain ⟨hheld, hreplies, hgone⟩ := follow_ledger hfollow
  rw [hempty] at hheld
  refine ⟨?_, ?_, ?_⟩
  · obtain ⟨mid, c, rest, rfl, hc, hmid, hafter⟩ :=
      releasedOnce_of_held hheld (Finset.mem_singleton_self (Handle.connection s))
        (Finset.notMem_empty _)
    obtain rfl := op_of_closes hc
    refine ⟨mid, rest, rfl, ?_, hafter rest [] (List.append_nil rest).symm ?_⟩
    · rintro ⟨o, r⟩ he rfl
      exact hmid _ he rfl
    · intro e he hopen
      obtain ⟨ai, rfl⟩ := op_of_opens hopen
      exact hkept _ (List.mem_append_right mid (List.mem_cons_of_mem _ he)) ai rfl
  · have hany : g'.gone = true ↔ ∃ e ∈ evs, isDisconnect s e = true := by
      rw [hgone]
      simp [startLedger]
    have hlist : g'.replies = repliesOf evs := hreplies
    simpa only [hany, hlist] using hsettled
  · rintro pre e post h rfl hopen
    exact releasedOnce_of_opens hheld hopen (Finset.notMem_empty h)

/-- Some descriptor is not handed out in a run. -/
theorem exists_notHandedOut (evs : Trace) : ∃ s, ∀ e ∈ evs, NotHandedOut s e := by
  have hbound : ∀ evs : Trace, ∃ n, ∀ e ∈ evs, ∀ u, n ≤ u → NotHandedOut u e := by
    intro evs
    induction evs with
    | nil => exact ⟨0, by simp⟩
    | cons e evs ih =>
      obtain ⟨n, hn⟩ := ih
      have hhead : ∃ m, ∀ u, m ≤ u → NotHandedOut u e := by
        by_cases hopen : ∃ ai v, e = ⟨.socket ai, some v⟩
        · obtain ⟨ai, v, rfl⟩ := hopen
          refine ⟨v + 1, ?_⟩
          intro u hu ai' heq
          cases heq
          exact Nat.not_succ_le_self v hu
        · exact ⟨0, fun u _ ai heq => hopen ⟨ai, u, heq⟩⟩
      obtain ⟨m, hm⟩ := hhead
      refine ⟨max m n, ?_⟩
      rw [List.forall_mem_cons]
      exact ⟨fun u hu => hm u (le_trans (le_max_left m n) hu),
        fun e he u hu => hn e he u (le_trans (le_max_right m n) hu)⟩
  obtain ⟨n, hn⟩ := hbound evs
  exact ⟨n, fun e he => hn e he n le_rfl⟩

/-- Every connection closes its socket last and once, replies once unless the client has gone,
and releases every upstream socket and address list once, inside `forwardRequest`. -/
theorem connection_disciplined (s : Socket) (clientIp : Bytes) (cfg : Config) :
    (∀ evs, Prog.Runs (handleClient s clientIp cfg) evs () → (∀ e ∈ evs, NotHandedOut s e) →
      Disciplined s evs) ∧
    (∀ req leftover evs, Prog.Runs (handleAccepted s clientIp cfg req leftover) evs () →
      (∀ e ∈ evs, NotHandedOut s e) → Disciplined s evs) ∧
    ∀ base req path auth timeoutMs evs pr,
      Prog.Runs (forwardRequest base req path auth timeoutMs) evs pr → ReleasesAll evs := by
  refine ⟨?_, ?_, ?_⟩
  · intro evs hrun hkept
    exact disciplined_of_settles hrun (handleClient_wp (connection_rules s cfg) clientIp) hkept
  · intro req leftover evs hrun hkept
    exact disciplined_of_settles hrun
      (handleAccepted_wp (connection_rules s cfg) clientIp leftover) hkept
  · rintro base req path auth timeoutMs evs pr hrun pre e post h rfl hopen
    obtain ⟨u, hkept⟩ := exists_notHandedOut (pre ++ e :: post)
    have hrules := @forwarding_rules u ⟨∅, [], false⟩ (Finset.empty_subset _)
    have hwp := forwardRequest_wp hrules base req path auth timeoutMs
    obtain ⟨g', hfollow, rfl⟩ := Monitor.follow_of_wp hwp hrun hkept
    exact releasedOnce_of_opens (follow_ledger hfollow).1 hopen (Finset.notMem_empty h)

/-- A client that says nothing and leaves, and an upstream that does not answer. -/
theorem silentPeers_disciplined :
    Disciplined 4 [⟨.recv 4 4096, .closed⟩, ⟨.closeSocket 4, ()⟩] ∧
      ReleasesAll connectTimeoutTrace := by
  obtain ⟨hclient, -, hforward⟩ := connection_disciplined 4 (ascii "10.0.0.1") {}
  obtain ⟨next, hfirst, hclosed⟩ := handleClient_closed 4 (ascii "10.0.0.1") {}
  refine ⟨hclient _ ?_ ?_, hforward _ _ _ _ _ _ _ connectTimeoutTrace_runs⟩
  · rw [hfirst]
    refine ⟨.closed, _, rfl, ?_⟩
    rw [hclosed]
    exact ⟨(), _, rfl, rfl, rfl⟩
  · simp [NotHandedOut]

end Gateway
