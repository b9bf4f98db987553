import Outpost.Proofs.Group.Members

/-!
# Connecting to a group

The listener of a session is reached at one `Session.Endpoint`: the port that it reported, on a
machine that connects to its own ports, or else the local end of the session's tunnel. A connection
is one stream to this endpoint, and a service of the caller's own is made and told of it. What such
a service does with the connection before it replies is part of the reply, and `Connection.Heard`
accounts for all of it: a service that closes its connection is told so, and the stream is given up.

`Group.connectAll` dials the sessions one after another and stops at the first that fails
(`Group.connections_made_in_order`). Then it owes its caller the streams that it has opened, since
nobody else can give them up: neither the connections that were made before nor that of a service
that objected are handed out. It forgets them (`Group.streams_left_open`).

## Contents

* `Connection.Leaving`, `Connection.run_perform`: what a service does with its connection.
* `Session.Endpoint`, `Session.endpoint?`: where a listener is reached.
* `Connection.Heard`, `Session.Dialled`: the rule for one connection.
* `Group.Dial`, `Group.run_connectMembers`: the rule for all of them.
* `Group.Connected`, `Group.connections_made_in_order`.
-/

namespace Outpost

/-! ## One connection -/

namespace Connection

/-- An exchange with its surroundings of a connection that is set up, by the interface `setup`. -/
abbrev Exchange : Type := Program.Exchange setup

/-- The `Connection` on a stream, once a service that is not the caller's own has heard of it. -/
def presented (settings : Settings) (stream : Machine.Socket) : Connection where
  stream
  service := settings.service.getD .silent
  config := match settings.service with
    | some .classic => (copyConfig settings.config).set "classic" (.bool true)
    | _ => copyConfig settings.config

/-! ### What a service does -/

/-- What a `Deed` makes of a connection. -/
def Deed.apply (connection : Connection) : Deed → Connection
  | .configure config => { connection with config }
  | .close => { connection with closed := true }

/-- The configuration of an open connection at the time when its service closes it, if it does;
`config` is what it is before the deeds. -/
def leaving? (config : Json) : List Deed → Option Json
  | [] => none
  | .configure config :: rest => leaving? config rest
  | .close :: _ => some config

/-- What is asked for where service `name` closes its connection with a configuration, and where it
does not. -/
inductive Leaving (name : String) (stream : Machine.Socket) : Option Json → List Exchange → Prop
  | stays : Leaving name stream none []
  | leaves (config : Json) (reply : Except Fault Unit) :
      Leaving name stream (some config) [⟨.closed name config true, reply⟩, ⟨.destroy stream, ()⟩]

section Perform

variable {connection last : Connection} {deeds : List Deed} {asked : List Exchange}

theorem stream_foldl_apply (connection : Connection) (deeds : List Deed) :
    (deeds.foldl Deed.apply connection).stream = connection.stream := by
  induction deeds generalizing connection with
  | nil => rfl
  | cons deed deeds ih =>
    rw [List.foldl_cons, ih]
    cases deed <;> rfl

/-- To `close` a connection that is closed asks for nothing. -/
theorem run_close_of_closed {ending : Except Fault Unit} (hclosed : connection.closed = true)
    (h : Program.Run (close.outcome.embed setupEmbedding) connection asked last ending) :
    last = connection ∧ asked = [] := by
  obtain ⟨stream, service, config, closed⟩ := connection
  obtain rfl := hclosed
  have hdone := Program.run_read_iff.1 h
  obtain ⟨rfl, rfl, -⟩ := Program.run_done_iff.1 hdone
  exact ⟨rfl, rfl⟩

/-- A service that closes its open connection by `close` is told so, and then the stream is given
up, whatever it replies. -/
theorem run_close_of_open {name : String} {ending : Except Fault Unit}
    (hservice : connection.service = .custom name) (hopen : connection.closed = false)
    (h : Program.Run (close.outcome.embed setupEmbedding) connection asked last ending) :
    last = { connection with closed := true } ∧
      Leaving name connection.stream (some connection.config) asked := by
  obtain ⟨stream, service, config, closed⟩ := connection
  obtain rfl := hservice
  obtain rfl := hopen
  have htold := Program.run_read_iff.1 (Program.run_write_iff.1 (Program.run_read_iff.1 h))
  obtain ⟨reply, rest, rfl, hrest⟩ := Program.run_ask_iff.1 htold
  obtain ⟨⟨⟩, rest, rfl, hdone⟩ := Program.run_ask_iff.1 (Program.run_read_iff.1 hrest)
  obtain ⟨rfl, rfl, -⟩ := Program.run_done_iff.1 hdone
  exact ⟨rfl, .leaves config reply⟩

theorem run_perform_of_closed (hclosed : connection.closed = true)
    (h : Program.Run (perform deeds) connection asked last ()) :
    last = deeds.foldl Deed.apply connection ∧ asked = [] := by
  induction deeds generalizing connection asked with
  | nil =>
    obtain ⟨rfl, rfl, -⟩ := Program.run_done_iff.1 h
    exact ⟨rfl, rfl⟩
  | cons deed deeds ih =>
    cases deed with
    | configure config => exact ih hclosed (Program.run_modify_bind_iff.1 h)
    | close =>
      obtain ⟨mid, ending, first, second, hclose, hrest, rfl⟩ := Program.run_bind_iff.1 h
      obtain ⟨rfl, rfl⟩ := run_close_of_closed hclosed hclose
      obtain ⟨rfl, rfl⟩ := ih hclosed hrest
      have hsame : Deed.apply mid .close = mid := by
        rw [Deed.apply, ← hclosed]
      rw [List.foldl_cons, hsame]
      exact ⟨rfl, rfl⟩

/-- All that a service does with its open connection by `perform`: the first time that it closes the
connection, the stream is given up, and nothing else asks for anything. -/
theorem run_perform {name : String} (hservice : connection.service = .custom name)
    (hopen : connection.closed = false) (h : Program.Run (perform deeds) connection asked last ()) :
    last = deeds.foldl Deed.apply connection ∧
      Leaving name connection.stream (leaving? connection.config deeds) asked := by
  induction deeds generalizing connection asked with
  | nil =>
    obtain ⟨rfl, rfl, -⟩ := Program.run_done_iff.1 h
    exact ⟨rfl, .stays⟩
  | cons deed deeds ih =>
    cases deed with
    | configure config => exact ih hservice hopen (Program.run_modify_bind_iff.1 h)
    | close =>
      obtain ⟨mid, ending, first, second, hclose, hrest, rfl⟩ := Program.run_bind_iff.1 h
      obtain ⟨rfl, hleaves⟩ := run_close_of_open hservice hopen hclose
      obtain ⟨rfl, rfl⟩ := run_perform_of_closed rfl hrest
      rw [List.append_nil]
      exact ⟨rfl, hleaves⟩

end Perform

/-- What is asked for when `establish` puts a connection together on a stream, and how that ends. A
service of the caller's own is made and told, which may both fail, and it may have closed the
connection by then; the others are not asked. -/
inductive Heard (settings : Settings) (stream : Machine.Socket) :
    List Exchange → Except Fault Connection → Prop
  | nobody : (∀ name, settings.service ≠ some (.custom name)) →
      Heard settings stream [] (.ok (presented settings stream))
  | unmade {name : String} (fault : Fault) : settings.service = some (.custom name) →
      Heard settings stream [⟨.made name, .error fault⟩] (.error fault)
  | told {name : String} {asked : List Exchange} (deeds : List Deed) (reply : Except Fault Unit) :
      settings.service = some (.custom name) →
      Leaving name stream (leaving? (copyConfig settings.config) deeds) asked →
      Heard settings stream
        (⟨.made name, .ok ()⟩ :: ⟨.opened name (copyConfig settings.config) false, (deeds, reply)⟩
          :: asked)
        (reply.map fun _ => deeds.foldl Deed.apply (fresh stream settings))

section Heard

variable {settings : Settings} {stream : Machine.Socket} {asked : List Exchange}
  {ending : Except Fault Connection}

/-- The connection that is made is one on the `stream`. -/
theorem Heard.stream_eq {connection : Connection}
    (h : Heard settings stream asked (.ok connection)) : connection.stream = stream := by
  generalize hending : Except.ok connection = ending at h
  cases h with
  | nobody =>
    obtain rfl := Except.ok.inj hending
    rfl
  | unmade fault => exact absurd hending nofun
  | told deeds reply =>
    rcases reply with fault | ⟨⟨⟩⟩
    · exact absurd hending nofun
    · obtain rfl := Except.ok.inj hending
      exact stream_foldl_apply _ _

/-- A connection is put together by `establish` on its stream. -/
theorem heard_of_run_establish {σ : Type} {s s' : σ}
    (h : Attempt.Run (establish stream settings : Attempt σ setup Connection) s asked s' ending) :
    s' = s ∧ Heard settings stream asked ending := by
  obtain ⟨service, config⟩ := settings
  have hnobody (hservice : ∀ name, service ≠ some (.custom name))
      (hrun : Program.Run (.done (.ok (presented ⟨service, config⟩ stream)) : Program σ setup _) s
        asked s' ending) : s' = s ∧ Heard ⟨service, config⟩ stream asked ending := by
    obtain ⟨rfl, rfl, rfl⟩ := Program.run_done_iff.1 hrun
    exact ⟨rfl, .nobody hservice⟩
  rcases service with _ | _ | _ | name
  · exact hnobody nofun h
  · exact hnobody nofun h
  · exact hnobody nofun h
  · obtain ⟨made, rest, rfl, hrest⟩ := Program.run_ask_iff.1 h
    rcases made with fault | ⟨⟨⟩⟩
    · obtain ⟨rfl, rfl, rfl⟩ := Program.run_done_iff.1 hrest
      exact ⟨rfl, .unmade fault rfl⟩
    · obtain ⟨mid, ⟨reply, connection⟩, first, second, hpresent, hdone, rfl⟩ :=
        Attempt.run_lift_bind_iff.1 hrest
      obtain ⟨rfl, hattended⟩ := Program.run_own_iff.1 hpresent
      obtain ⟨⟨deeds, _⟩, asked, rfl, hasked⟩ :=
        Program.run_ask_iff.1 (Program.run_read_iff.1 hattended)
      obtain ⟨left, ⟨⟩, third, fourth, hperform, hend, rfl⟩ := Program.run_bind_iff.1 hasked
      obtain ⟨rfl, rfl, rfl⟩ := Program.run_done_iff.1 hend
      obtain ⟨rfl, hleaving⟩ := run_perform rfl rfl hperform
      have hending : s' = mid ∧ second = [] ∧
          ending = reply.map fun _ =>
            deeds.foldl Deed.apply (fresh stream ⟨some (.custom name), config⟩) := by
        rcases reply with fault | ⟨⟨⟩⟩
        · obtain ⟨rfl, rfl, rfl⟩ := Program.run_done_iff.1 hdone
          exact ⟨rfl, rfl, rfl⟩
        · obtain ⟨rfl, rfl, rfl⟩ := Program.run_done_iff.1 hdone
          exact ⟨rfl, rfl, rfl⟩
      obtain ⟨rfl, rfl, rfl⟩ := hending
      rw [List.append_nil, List.append_nil]
      exact ⟨rfl, .told deeds reply rfl hleaving⟩

end Heard

end Connection

namespace Session

/-- Where the listener of a `Session` is reached. -/
inductive Endpoint where
  /-- A `port` of the machine. -/
  | direct (port : Nat)
  /-- The local end of a tunnel. -/
  | forwarded (port : Nat)

/-- The endpoint of a `Session`, which one that is not ready does not have. -/
def endpoint? (session : Session) : Option Endpoint :=
  match session.state, session.machine, session.remotePort with
  | .ready, some machine, some remotePort =>
    match machine.connectivity with
    | .direct => some (.direct remotePort)
    | .tunnel _ => session.localPort.map .forwarded
  | _, _, _ => none

/-- A stream is asked for at an `Endpoint`. -/
def Endpoint.dial : Endpoint → Except Fault Machine.Socket → Exchange
  | .direct port, reply => ⟨.machine (.connect (.ofNat port)), reply⟩
  | .forwarded port, reply => ⟨.connectLocal port, reply⟩

/-- An exchange of a `Connection`, as one of its session. -/
def Exchange.ofConnection (x : Connection.Exchange) : Exchange := ⟨.connection x.request, x.reply⟩

/-- How connecting to a session goes: it has no `Endpoint`, or there is no stream to be had, or the
service is told of the stream. -/
inductive Dialled (settings : Connection.Settings) (session : Session) :
    List Exchange → Except Fault Connection → Prop
  | refused {text : String} : session.endpoint? = none →
      Dialled settings session [] (.error (.state text none))
  | unreached {endpoint : Endpoint} (fault : Fault) : session.endpoint? = some endpoint →
      Dialled settings session [endpoint.dial (.error fault)] (.error fault)
  | reached {endpoint : Endpoint} {told : List Connection.Exchange}
      {ending : Except Fault Connection} (stream : Machine.Socket) :
      session.endpoint? = some endpoint → Connection.Heard settings stream told ending →
      Dialled settings session (endpoint.dial (.ok stream) :: told.map .ofConnection) ending

section Dialled

variable {settings : Connection.Settings} {session last : Session} {exchanges : List Exchange}

/-- A session that is not `Serving` connections has no endpoint. -/
theorem endpoint?_of_not_serving (hserving : ¬ Serving session) : session.endpoint? = none := by
  rw [endpoint?]
  split
  · rename_i machine remotePort hstate hmachine hremotePort
    refine absurd ⟨hstate, ?_, ?_⟩ hserving
    · exact Option.ne_none_iff_exists'.2 ⟨machine, hmachine⟩
    · exact Option.ne_none_iff_exists'.2 ⟨remotePort, hremotePort⟩
  · rfl

/-- A stream is asked for by `connectSocket` at the endpoint, once. -/
theorem run_connectSocket_cases {ending : Except Fault Machine.Socket}
    (h : Attempt.Run connectSocket session exchanges last ending) :
    last = session ∧
      ((session.endpoint? = none ∧ exchanges = [] ∧ ∃ text, ending = .error (.state text none)) ∨
        ∃ endpoint, session.endpoint? = some endpoint ∧ exchanges = [endpoint.dial ending]) := by
  by_cases hserving : Serving session
  · obtain ⟨machine, hmachine⟩ := Option.ne_none_iff_exists'.1 hserving.machine
    obtain ⟨remotePort, hremotePort⟩ := Option.ne_none_iff_exists'.1 hserving.remotePort
    rw [connectSocket, Attempt.run_get_bind_iff, hserving.state, hmachine, hremotePort] at h
    rw [endpoint?, hserving.state, hmachine, hremotePort]
    cases hconnectivity : machine.connectivity with
    | direct =>
      simp only [hconnectivity] at h ⊢
      obtain ⟨rfl, rfl⟩ := Program.run_request_iff.1 h
      exact ⟨rfl, .inr ⟨.direct remotePort, rfl, rfl⟩⟩
    | tunnel name =>
      cases hlocalPort : session.localPort with
      | some localPort =>
        simp only [hconnectivity, hlocalPort] at h ⊢
        obtain ⟨rfl, rfl⟩ := Program.run_request_iff.1 h
        exact ⟨rfl, .inr ⟨.forwarded localPort, rfl, rfl⟩⟩
      | none =>
        simp only [hconnectivity, hlocalPort] at h ⊢
        obtain ⟨rfl, rfl, rfl⟩ := Attempt.run_throw_iff.1 h
        exact ⟨rfl, .inl ⟨rfl, rfl, _, rfl⟩⟩
  · obtain ⟨hlast, -⟩ := Program.Run.of_observes h observes_connectSocket
    obtain ⟨hexchanges, hfault⟩ := run_connectSocket_of_not_serving hserving h
    exact ⟨hlast, .inl ⟨endpoint?_of_not_serving hserving, hexchanges, hfault⟩⟩

/-- What a connection asks for that is set up, it asks for through its session. -/
theorem run_embed_connection {σ α : Type} {p : Program σ Connection.setup α} {s s' : σ} {a : α}
    (h : Program.Run (p.embed connectionEmbedding) s exchanges s' a) :
    ∃ told : List Connection.Exchange, Program.Run p s told s' a ∧
      exchanges = told.map .ofConnection := by
  obtain ⟨carried, hrun, rfl⟩ := Program.run_embed_iff.1 h
  refine ⟨_, hrun, ?_⟩
  rw [List.map_map]
  rfl

/-- Connecting to a session by `connect` follows the rule of `Dialled`. -/
theorem dialled_of_run_connect {ending : Except Fault Connection}
    (h : Attempt.Run (connect settings) session exchanges last ending) :
    last = session ∧ Dialled settings session exchanges ending := by
  rcases Attempt.run_bind_iff.1 h with
    ⟨fault, hsocket, rfl⟩ | ⟨mid, stream, first, second, hsocket, hestablish, rfl⟩
  · obtain ⟨rfl, ⟨hnone, rfl, text, htext⟩ | ⟨endpoint, hendpoint, rfl⟩⟩ :=
      run_connectSocket_cases hsocket
    · obtain rfl := Except.error.inj htext
      exact ⟨rfl, .refused hnone⟩
    · exact ⟨rfl, .unreached fault hendpoint⟩
  · obtain ⟨rfl, ⟨-, -, text, htext⟩ | ⟨endpoint, hendpoint, rfl⟩⟩ :=
      run_connectSocket_cases hsocket
    · exact absurd htext nofun
    · obtain ⟨told, htold, rfl⟩ := run_embed_connection hestablish
      obtain ⟨rfl, hheard⟩ := Connection.heard_of_run_establish htold
      exact ⟨rfl, .reached stream hendpoint hheard⟩

end Dialled

end Session

/-! ## Connections to all -/

namespace Group

/-- A connection to a `Member` that was tried. -/
structure Dial where
  member : Member
  exchanges : List Session.Exchange

namespace Dial

/-- The session was asked by `connect` for the connection, which left it as it was. -/
def Ran (settings : Connection.Settings) (dial : Dial) (ending : Except Fault Connection) : Prop :=
  Attempt.Run (Session.connect settings) dial.member.session dial.exchanges dial.member.session
    ending

/-- How a connection went, by `Dialled`. -/
def Ended (settings : Connection.Settings) (dial : Dial) (ending : Except Fault Connection) :
    Prop :=
  Session.Dialled settings dial.member.session dial.exchanges ending

/-- What was exchanged for a `Dial`, as the group does it. -/
def exchanged (dial : Dial) : List Exchange := dial.exchanges.map (.ofMember dial.member.index)

/-- A connection was made, the `connection`: its stream was opened to the endpoint of the session,
and its service did not object. -/
def Opened (settings : Connection.Settings) (dial : Dial) (connection : Connection) : Prop :=
  ∃ endpoint told, dial.member.session.endpoint? = some endpoint ∧
    dial.exchanges = endpoint.dial (.ok connection.stream) :: told.map .ofConnection ∧
    Connection.Heard settings connection.stream told (.ok connection)

end Dial

section Connecting

variable {settings : Connection.Settings} {group last : Group} {exchanges : List Exchange}
  {result : Except Fault (List Connection)}

/-- Connecting to members by `connectMembers` changes none of them. -/
theorem run_connectMembers {places : List (Member × Nat)}
    (hplaces : ∀ place ∈ places, group.members[place.2]? = some place.1)
    (h : Attempt.Run (connectMembers settings places) group exchanges last result) :
    last = group ∧ ∃ dials, InTurn Dial.member (Dial.Ran settings) (places.map Prod.fst) dials
        result ∧
      exchanges = dials.flatMap Dial.exchanged := by
  induction places generalizing exchanges result with
  | nil =>
    obtain ⟨rfl, rfl, rfl⟩ := Attempt.run_pure_iff.1 h
    exact ⟨rfl, [], .done, rfl⟩
  | cons place places ih =>
    obtain ⟨member, position⟩ := place
    obtain ⟨hmember, hrest⟩ := List.forall_mem_cons.1 hplaces
    -- what is asked of a member through its group is asked of its session, and leaves it alone
    have hconnected {mid : Group} {asked : List Exchange} {ending : Except Fault Connection}
        (hconnect : Attempt.Run (onMember position member (Session.connect settings)) group asked
          mid ending) :
        mid = group ∧ ∃ dial : Dial, dial.member = member ∧ asked = dial.exchanged ∧
          dial.Ran settings ending := by
      obtain ⟨inner, session, hinner, rfl, rfl⟩ := (run_onMember_iff hmember).1 hconnect
      obtain ⟨rfl, -⟩ := Session.dialled_of_run_connect hinner
      exact ⟨setSession_self hmember, ⟨member, inner⟩, rfl, rfl, hinner⟩
    rcases Attempt.run_bind_iff.1 h with
      ⟨fault, hfailed, rfl⟩ | ⟨mid, connection, first, second, hconnect, hmore, rfl⟩
    · obtain ⟨rfl, dial, rfl, rfl, hended⟩ := hconnected hfailed
      exact ⟨rfl, [dial], .failed hended, (List.flatMap_singleton ..).symm⟩
    · obtain ⟨rfl, dial, rfl, rfl, hended⟩ := hconnected hconnect
      rcases Attempt.run_bind_iff.1 hmore with
        ⟨fault, hfailed, rfl⟩ | ⟨mid', connections, third, fourth, hothers, hdone, rfl⟩
      · obtain ⟨rfl, dials, hdials, rfl⟩ := ih hrest hfailed
        exact ⟨rfl, dial :: dials, .next hended hdials, rfl⟩
      · obtain ⟨rfl, rfl, rfl⟩ := Attempt.run_pure_iff.1 hdone
        obtain ⟨rfl, dials, hdials, rfl⟩ := ih hrest hothers
        exact ⟨rfl, dial :: dials, .next hended hdials, by simp⟩

/-- Connecting to a group by `connectAll` follows the rule for each of its sessions. -/
theorem run_connectAll (h : Attempt.Run (connectAll settings) group exchanges last result) :
    last = group ∧ ∃ dials, InTurn Dial.member (Dial.Ran settings) group.members dials result ∧
      exchanges = dials.flatMap Dial.exchanged := by
  rw [connectAll, Attempt.run_get_bind_iff] at h
  have hplaces : ∀ place ∈ group.members.zipIdx, group.members[place.2]? = some place.1 :=
    fun place hplace => List.mem_zipIdx_iff_getElem?.1 hplace
  have hrun := run_connectMembers hplaces h
  rwa [List.zipIdx_map_fst] at hrun

/-- Connections that were made are what they should be, each `Opened`. -/
theorem opened_of_ended {dials : List Dial} {connections : List Connection}
    (h : List.Forall₂ (fun dial connection => Dial.Ended settings dial (.ok connection)) dials
      connections) :
    List.Forall₂ (Dial.Opened settings) dials connections := by
  refine h.imp fun dial connection hended => ?_
  obtain ⟨member, asked⟩ := dial
  generalize hending : Except.ok connection = ending at hended
  cases hended with
  | refused | unreached => exact absurd hending nofun
  | @reached endpoint told ending stream hendpoint hheard =>
    obtain rfl := hending
    obtain rfl := hheard.stream_eq
    exact ⟨endpoint, told, hendpoint, rfl, hheard⟩

/-- What connecting by `connectAll` to all sessions of a group comes to. -/
structure Connected (settings : Connection.Settings) (group last : Group)
    (exchanges : List Exchange) (result : Except Fault (List Connection)) (dials : List Dial) :
    Prop where
  /-- The group stays as it is. -/
  unchanged : last = group
  /-- Sessions are dialled in their order, each once, up to the end of `dials`. -/
  in_order : dials.map Dial.member <+: group.members
  /-- No other session is asked for anything. -/
  asked : exchanges = dials.flatMap Dial.exchanged
  /-- A success has one connection for each session, its stream opened to the endpoint of this
  session. -/
  opened : ∀ connections, result = .ok connections →
    dials.map Dial.member = group.members ∧
      List.Forall₂ (Dial.Opened settings) dials connections
  /-- A failure is that of the first session that fails, and this is the last that is dialled. -/
  failed : ∀ fault, result = .error fault →
    ∃ front last connections, dials = front ++ [last] ∧
      List.Forall₂ (Dial.Opened settings) front connections ∧ last.Ended settings (.error fault)

/-- **Connections in order, up to the first fault.** `connectAll` and `classicConnectAll` connect to
the sessions in their order. If all connections are made, there is one for each session, its stream
opened to the endpoint of this session. Otherwise the fault is that of the first session that fails,
and no later one is asked for anything. -/
theorem connections_made_in_order {x : Attempt Group interface (List Connection)}
    (hx : x = connectAll settings ∨ x = classicConnectAll ∧ settings = { service := some .classic })
    (h : Attempt.Run x group exchanges last result) :
    ∃ dials, Connected settings group last exchanges result dials := by
  have hrun : Attempt.Run (connectAll settings) group exchanges last result := by
    rcases hx with rfl | ⟨rfl, rfl⟩
    · exact h
    · exact h
  obtain ⟨rfl, dials, hran, rfl⟩ := run_connectAll hrun
  have hdials : InTurn Dial.member (Dial.Ended settings) last.members dials result :=
    hran.imp fun _ _ hdial => (Session.dialled_of_run_connect hdial).2
  refine ⟨dials, rfl, hdials.isPrefix, rfl, ?_, ?_⟩
  · rintro connections rfl
    obtain ⟨hall, hopened⟩ := hdials.of_ok
    exact ⟨hall, opened_of_ended hopened⟩
  · rintro fault rfl
    obtain ⟨front, failed, connections, hfront, hopened, hfailed⟩ := hdials.of_error
    exact ⟨front, failed, connections, hfront, opened_of_ended hopened, hfailed⟩

end Connecting

/-! ### Two sessions to go by -/

/-- A `Group` that was started on two machines. -/
def pair : Group where
  machines := [⟨none, .direct⟩, ⟨none, .direct⟩]
  options := Session.briefInput
  members := [⟨0, Session.briefReady⟩, ⟨1, Session.briefReady⟩]
  started := true

/-- A stream is asked for at the port that the listener of a session in it reported. -/
def pairDial (index : Nat) (reply : Except Fault Machine.Socket) : Exchange :=
  ⟨.member index (.machine (.connect (.ofNat 60123))), reply⟩

/-- What the second machine says. -/
def pairRefusal : Fault := .error "connect ECONNREFUSED" (some "ECONNREFUSED") none

/-- What a service says that cannot be set up. -/
def pairObjection : Fault := .ofMessage "no such account"

theorem run_connectAll_pair :
    Attempt.Run (connectAll {}) pair [pairDial 0 (.ok ⟨0⟩), pairDial 1 (.error pairRefusal)] pair
      (.error pairRefusal) := by
  refine .read (.read (.ask _ ?_))
  refine .read (.ask _ ?_)
  exact .done _ _

theorem run_connectAll_pair_custom :
    Attempt.Run (connectAll { service := some (.custom "ledger") }) pair
      [pairDial 0 (.ok ⟨0⟩), ⟨.member 0 (.connection (.made "ledger")), .ok ()⟩,
        ⟨.member 0 (.connection (.opened "ledger" (Connection.copyConfig none) false)),
          ([], .error pairObjection)⟩] pair (.error pairObjection) := by
  refine .read (.read (.ask _ ?_))
  refine .ask _ (.ask _ ?_)
  exact .done _ _

/-- The first connection is made by `connectAll`, and the second session cannot be reached. -/
theorem first_connection_kept :
    ∃ dials : List Dial, [pairDial 0 (.ok ⟨0⟩), pairDial 1 (.error pairRefusal)]
        = dials.flatMap Dial.exchanged ∧
      ∃ front failed connections, dials = front ++ [failed] ∧
        List.Forall₂ (Dial.Opened {}) front connections ∧ failed.Ended {} (.error pairRefusal) := by
  obtain ⟨dials, hdials⟩ := connections_made_in_order (.inl rfl) run_connectAll_pair
  exact ⟨dials, hdials.asked, hdials.failed _ rfl⟩

/-- A caller who gets a fault has streams left that were opened and not given up: that of the
connection that was made before the session that failed, and that of a connection whose service
failed. -/
theorem streams_left_open :
    (∀ member ∈ pair.members, member.session.state = .ready ∧
      member.session.endpoint? = some (.direct 60123)) ∧
    (∃ exchanges, Attempt.Run (connectAll {}) pair exchanges pair (.error pairRefusal) ∧
      pairDial 0 (.ok ⟨0⟩) ∈ exchanges ∧
      ∀ x ∈ exchanges, x.request ≠ .member 0 (.connection (.destroy ⟨0⟩))) ∧
    ∃ exchanges, Attempt.Run (connectAll { service := some (.custom "ledger") }) pair exchanges pair
        (.error pairObjection) ∧
      pairDial 0 (.ok ⟨0⟩) ∈ exchanges ∧
      ∀ x ∈ exchanges, x.request ≠ .member 0 (.connection (.destroy ⟨0⟩)) := by
  refine ⟨?_, ⟨_, run_connectAll_pair, List.mem_cons_self, ?_⟩,
    _, run_connectAll_pair_custom, List.mem_cons_self, ?_⟩
  · exact List.forall_mem_cons.2 ⟨⟨rfl, rfl⟩, List.forall_mem_singleton.2 ⟨rfl, rfl⟩⟩
  · exact List.forall_mem_cons.2 ⟨nofun, List.forall_mem_singleton.2 nofun⟩
  · exact List.forall_mem_cons.2
      ⟨nofun, List.forall_mem_cons.2 ⟨nofun, List.forall_mem_singleton.2 nofun⟩⟩

end Group

end Outpost
