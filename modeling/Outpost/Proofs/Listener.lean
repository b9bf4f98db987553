import Mathlib.Data.List.Nodup
import Outpost.Listener

/-!
# What a listener keeps of its connections

Streams are accepted and close, fail now and then, and the listener is closed, once or several
times, in whatever order (`Happening`). The order has only to be one that streams can keep: a stream
is accepted once, and closes at most once, and then after it was accepted (`Plausible`).

A listener goes through all of it with exact books (`bookkeeping_is_exact`). Its connections are
always the streams that were accepted and have not closed. For every stream there is one instance of
the service, made when the stream is accepted, told of it then, and told again when it closes. What
a closing of the listener gives up is just what is open when it begins; and a closing has ended when
the server says that it has stopped, and not before that.

## Contents

* `proceed`, with a lemma for each program of a listener.
* `Happening`, `Course`, `Course.step`, `Course.run`: what happens to a listener, and what it does.
* `accepted`, `gone`, `openStreams`: what has become of the streams.
* `Allowed`, `Plausible`: what can happen next.
* `caused`, `account`: what everything that happens makes the listener do.
* `Kept`, `Kept.step`, `Kept.run`: what every happening preserves.
* `bookkeeping_is_exact`.
-/

namespace Outpost

namespace Listener

/-! ## Programs of a listener -/

/-- A program of a `Listener` that waits for a reply. -/
structure Waiting where
  request : Request
  next : interface.Reply request → Program Listener interface Unit

/-- The reply to a `Request` that is carried out at once. -/
def instant? : (r : Request) → Option (interface.Reply r)
  | .listen .. => none
  | .closeServer => none
  | .destroy _ => some ()
  | .sendBack _ => some ()
  | .opened _ => some ()
  | .closed _ => some ()
  | .remark _ => some ()
  | .warning _ => some ()

/-- The reply of a server that has stopped to a `Request` that waits for that. -/
def stopped? : (r : Request) → Option (interface.Reply r)
  | .closeServer => some ()
  | _ => none

/-- Carries a program out until it has ended or has to wait: its requests, the listener, and what is
`Waiting`. -/
def proceed : Program Listener interface Unit → Listener →
    List Request × Listener × Option Waiting
  | .done _, listener => ([], listener, none)
  | .read next, listener => proceed (next listener) listener
  | .write listener next, _ => proceed next listener
  | .ask request next, listener =>
    match instant? request with
    | none => ([request], listener, some ⟨request, next⟩)
    | some reply =>
      let rest := proceed (next reply) listener
      (request :: rest.1, rest.2)

/-- What is asked for when an `Attendant` gets its stream. -/
def welcome (settings : Settings) (attendant : Attendant) : List Request :=
  match settings.hosted with
  | .echo => [.sendBack attendant.stream]
  | .silent => []
  | .custom => [.opened attendant]

/-- What is asked for when the stream of an `Attendant` has closed. -/
def leave (settings : Settings) (attendant : Attendant) : List Request :=
  match settings.hosted with
  | .echo => []
  | .silent => []
  | .custom => [.closed attendant]

section Proceed

variable (settings : Settings) (listener : Listener)

theorem proceed_accept (stream : Nat) :
    proceed (accept settings stream) listener
      = (welcome settings ⟨listener.attendants.length, stream⟩,
          { listener with
            connections := listener.connections ++ [stream]
            attendants := listener.attendants ++ [⟨listener.attendants.length, stream⟩] },
          none) := by
  obtain ⟨hosted, hostname, port⟩ := settings
  cases hosted <;> rfl

theorem proceed_closed {stream : Nat} {attendant : Attendant}
    (h : listener.attendants.find? (·.stream = stream) = some attendant) :
    proceed (closed settings stream) listener
      = (leave settings attendant,
          { listener with connections := listener.connections.filter (· ≠ stream) }, none) := by
  obtain ⟨hosted, hostname, port⟩ := settings
  rw [closed]
  dsimp only [get, getThe, MonadStateOf.get, bind, Program.bind, proceed]
  rw [h]
  cases hosted <;> rfl

/-- Giving up streams by `destroyAll`, and then going on. -/
theorem proceed_destroyAll_bind (streams : List Nat) (p : Program Listener interface Unit) :
    proceed (destroyAll streams >>= fun _ => p) listener
      = (streams.map .destroy ++ (proceed p listener).1, (proceed p listener).2) := by
  induction streams with
  | nil => rfl
  | cons stream streams ih =>
    have hcons : proceed (destroyAll (stream :: streams) >>= fun _ => p) listener
        = (.destroy stream :: (proceed (destroyAll streams >>= fun _ => p) listener).1,
            (proceed (destroyAll streams >>= fun _ => p) listener).2) := rfl
    rw [hcons, ih]
    rfl

theorem proceed_close :
    proceed close listener
      = (listener.connections.map .destroy ++ [.closeServer], listener,
          some ⟨.closeServer, .done⟩) :=
  proceed_destroyAll_bind listener listener.connections (.ask .closeServer .done)

end Proceed

/-! ## What happens to a listener -/

/-- What may happen to a `Listener`. -/
inductive Happening where
  /-- A `stream` is accepted. -/
  | accepts (stream : Nat)
  /-- A `stream` reports that it is closed. -/
  | closes (stream : Nat)
  /-- A stream reports an error. -/
  | fails (stream : Nat) (message : String)
  /-- Someone closes the listener by `close`. -/
  | close
  /-- The server says that it has stopped, as it was asked to in this `closing`. -/
  | stops (closing : Nat)
deriving DecidableEq, Repr

/-- What a `Listener` does that can be seen. -/
inductive Event where
  | asked (request : Request)
  /-- A closing of the listener has ended. -/
  | ended (closing : Nat)

/-- A `Listener` at work: how often it has been closed, which of these closings wait, and everything
that it has done. -/
structure Course where
  listener : Listener
  closings : Nat := 0
  waiting : List (Nat × Waiting) := []
  events : List Event := []

namespace Course

variable (settings : Settings)

/-- A program that nobody waits for is carried out by `proceed`. -/
def perform (course : Course) (p : Program Listener interface Unit) : Course :=
  let (requests, listener, _) := proceed p course.listener
  { course with listener, events := course.events ++ requests.map .asked }

/-- A `closing` goes on. -/
def goOn (course : Course) (closing : Nat) (p : Program Listener interface Unit) : Course :=
  match proceed p course.listener with
  | (requests, listener, none) =>
    { course with listener, events := course.events ++ (requests.map .asked ++ [.ended closing]) }
  | (requests, listener, some waiting) =>
    { course with
      listener
      waiting := course.waiting ++ [(closing, waiting)]
      events := course.events ++ requests.map .asked }

/-- Something happens to the listener of a `Course`. -/
def step (course : Course) : Happening → Course
  | .accepts stream => course.perform (accept settings stream)
  | .closes stream => course.perform (closed settings stream)
  | .fails _ message => course.perform (failed message)
  | .close => { course with closings := course.closings + 1 }.goOn course.closings close
  | .stops closing =>
    match course.waiting.find? (·.1 = closing) with
    | none => course
    | some (_, waiting) =>
      match stopped? waiting.request with
      | none => course
      | some reply =>
        { course with waiting := course.waiting.filter (·.1 ≠ closing) }.goOn closing
          (waiting.next reply)

/-- One thing after another happens, each a `step`. -/
def run (course : Course) (happenings : List Happening) : Course :=
  happenings.foldl (step settings) course

end Course

/-! ## What has happened -/

namespace Happening

def accepted? : Happening → Option Nat
  | .accepts stream => some stream
  | _ => none

def gone? : Happening → Option Nat
  | .closes stream => some stream
  | _ => none

def isClose : Happening → Bool
  | .close => true
  | _ => false

end Happening

/-- The streams that were accepted. -/
def accepted (happenings : List Happening) : List Nat :=
  happenings.filterMap Happening.accepted?

/-- The streams that have closed. -/
def gone (happenings : List Happening) : List Nat :=
  happenings.filterMap Happening.gone?

/-- The streams that were accepted and have not closed. -/
def openStreams (happenings : List Happening) : List Nat :=
  (accepted happenings).filter (· ∉ gone happenings)

/-- How often the listener was closed. -/
def closings (happenings : List Happening) : Nat :=
  happenings.countP Happening.isClose

/-- What can happen next, as a `Happening`: no stream is accepted twice, and one that was accepted
may fail, and closes once. The server says once of every closing that it has stopped. -/
def Allowed (before : List Happening) : Happening → Prop
  | .accepts stream => stream ∉ accepted before
  | .closes stream => stream ∈ accepted before ∧ stream ∉ gone before
  | .fails stream _ => stream ∈ accepted before
  | .close => True
  | .stops closing => closing < closings before ∧ .stops closing ∉ before

/-- Each of the happenings is `Allowed` to come after those before it. -/
def PlausibleAfter (before : List Happening) : List Happening → Prop
  | [] => True
  | happening :: rest => Allowed before happening ∧ PlausibleAfter (before ++ [happening]) rest

/-- Streams and servers can behave like this. -/
def Plausible (happenings : List Happening) : Prop := PlausibleAfter [] happenings

instance (before : List Happening) : DecidablePred (Allowed before)
  | .accepts _ => inferInstanceAs (Decidable (_ ∉ _))
  | .closes _ => inferInstanceAs (Decidable (_ ∧ _))
  | .fails _ _ => inferInstanceAs (Decidable (_ ∈ _))
  | .close => inferInstanceAs (Decidable True)
  | .stops _ => inferInstanceAs (Decidable (_ ∧ _))

instance decidablePlausibleAfter :
    (before rest : List Happening) → Decidable (PlausibleAfter before rest)
  | _, [] => isTrue trivial
  | before, happening :: rest =>
    have := decidablePlausibleAfter (before ++ [happening]) rest
    inferInstanceAs (Decidable (_ ∧ _))

instance (happenings : List Happening) : Decidable (Plausible happenings) :=
  decidablePlausibleAfter [] happenings

/-! ## What it makes the listener do -/

section Account

variable (settings : Settings)

/-- What a `Happening` makes the listener do. An attendant has as its number how many streams were
accepted before its own. -/
def caused (before : List Happening) : Happening → List Event
  | .accepts stream => (welcome settings ⟨(accepted before).length, stream⟩).map .asked
  | .closes stream => (leave settings ⟨(accepted before).idxOf stream, stream⟩).map .asked
  | .fails _ message => [.asked (.warning ("[TcpServer] connection error: " ++ message))]
  | .close => ((openStreams before).map Request.destroy ++ [Request.closeServer]).map .asked
  | .stops closing => [.ended closing]

/-- What everything that happens makes the listener do: all that is `caused`. -/
def account (before : List Happening) : List Happening → List Event
  | [] => []
  | happening :: rest => caused settings before happening ++ account (before ++ [happening]) rest

end Account

/-! ## What every happening preserves -/

/-- The `Attendant`s of streams. -/
def attendantsOf (streams : List Nat) : List Attendant := streams.mapIdx .mk

/-- A `Listener` whose books about streams agree with what has happened. -/
structure KeepsStreams (before : List Happening) (listener : Listener) : Prop where
  nodup : (accepted before).Nodup
  gone_nodup : (gone before).Nodup
  gone_subset : gone before ⊆ accepted before
  connections_eq : listener.connections = openStreams before
  attendants_eq : listener.attendants = attendantsOf (accepted before)

/-- What waits in a `closing` of the listener. -/
def waitingIn (closing : Nat) : Nat × Waiting := (closing, ⟨.closeServer, .done⟩)

/-- The closings of which the server has not said that it has stopped. -/
def unstopped (happenings : List Happening) : List Nat :=
  (List.range (closings happenings)).filter fun closing => .stops closing ∉ happenings

/-- Everything about the listener of a `Course` agrees with what has happened. -/
structure Kept (before : List Happening) (course : Course) : Prop where
  streams : KeepsStreams before course.listener
  closings_eq : course.closings = closings before
  lt_closings : ∀ closing, .stops closing ∈ before → closing < closings before
  waiting_eq : course.waiting = (unstopped before).map waitingIn

section Kept

variable {settings : Settings} {before : List Happening} {course : Course}

theorem accepted_append_singleton (happening : Happening) :
    accepted (before ++ [happening]) = accepted before ++ happening.accepted?.toList := by
  cases happening <;> simp [accepted, Happening.accepted?]

theorem gone_append_singleton (happening : Happening) :
    gone (before ++ [happening]) = gone before ++ happening.gone?.toList := by
  cases happening <;> simp [gone, Happening.gone?]

theorem closings_append_singleton (happening : Happening) :
    closings (before ++ [happening]) = closings before + if happening.isClose then 1 else 0 := by
  cases happening <;> simp [closings, Happening.isClose]

theorem openStreams_append_accepts {stream : Nat} (h : stream ∉ gone before) :
    openStreams (before ++ [.accepts stream]) = openStreams before ++ [stream] := by
  rw [openStreams, accepted_append_singleton, gone_append_singleton]
  simp [Happening.accepted?, Happening.gone?, openStreams, h]

theorem openStreams_append_closes (stream : Nat) :
    openStreams (before ++ [.closes stream]) = (openStreams before).filter (· ≠ stream) := by
  rw [openStreams, accepted_append_singleton, gone_append_singleton, openStreams,
    List.filter_filter]
  simp only [Happening.accepted?, Happening.gone?, Option.toList, List.append_nil]
  refine List.filter_congr fun other _ => ?_
  simp only [List.mem_append, List.mem_singleton, not_or, Bool.decide_and, ne_eq]
  exact Bool.and_comm ..

theorem attendantsOf_append (streams : List Nat) (stream : Nat) :
    attendantsOf (streams ++ [stream]) = attendantsOf streams ++ [⟨streams.length, stream⟩] := by
  rw [attendantsOf, List.mapIdx_append]
  simp [attendantsOf]

theorem length_attendantsOf (streams : List Nat) : (attendantsOf streams).length = streams.length :=
  List.length_mapIdx

/-- The attendant that `find?` finds for a stream has the number of the stream. -/
theorem find?_attendantsOf {streams : List Nat} {stream : Nat} (h : stream ∈ streams) :
    (attendantsOf streams).find? (·.stream = stream) = some ⟨streams.idxOf stream, stream⟩ := by
  have hfrom (n : Nat) : (streams.mapIdx fun k s => Attendant.mk (n + k) s).find?
      (·.stream = stream) = some ⟨n + streams.idxOf stream, stream⟩ := by
    induction streams generalizing n with
    | nil => exact absurd h List.not_mem_nil
    | cons first rest ih =>
      rw [List.mapIdx_cons]
      by_cases hfirst : first = stream
      · subst hfirst
        simp
      · rw [List.find?_cons_of_neg (by simpa using hfirst), List.idxOf_cons_ne _ hfirst]
        have hrest := ih (List.mem_of_ne_of_mem (Ne.symm hfirst) h) (n + 1)
        simp only [Nat.add_assoc, Nat.add_comm 1] at hrest
        exact hrest
  simpa [attendantsOf] using hfrom 0

/-- What is not about streams leaves the books about them as they are: the listener still
`KeepsStreams`. -/
theorem KeepsStreams.append {listener : Listener} (h : KeepsStreams before listener)
    {happening : Happening} (haccepted : happening.accepted? = none)
    (hgone : happening.gone? = none) : KeepsStreams (before ++ [happening]) listener := by
  have haccepted' : accepted (before ++ [happening]) = accepted before := by
    rw [accepted_append_singleton, haccepted]
    exact List.append_nil _
  have hgone' : gone (before ++ [happening]) = gone before := by
    rw [gone_append_singleton, hgone]
    exact List.append_nil _
  refine ⟨?_, ?_, ?_, ?_, ?_⟩
  · rw [haccepted']
    exact h.nodup
  · rw [hgone']
    exact h.gone_nodup
  · rw [haccepted', hgone']
    exact h.gone_subset
  · rw [openStreams, haccepted', hgone', h.connections_eq, openStreams]
  · rw [haccepted', h.attendants_eq]

theorem unstopped_append {happening : Happening} (hclose : happening.isClose = false)
    (hstops : ∀ closing, happening ≠ .stops closing) :
    unstopped (before ++ [happening]) = unstopped before := by
  rw [unstopped, closings_append_singleton, hclose]
  refine List.filter_congr fun closing _ => ?_
  simp [(hstops closing).symm]

/-- What neither is a closing nor ends one leaves the closings as they are. -/
theorem Kept.perform (h : Kept before course) {happening : Happening} {listener : Listener}
    {events : List Event} (hstreams : KeepsStreams (before ++ [happening]) listener)
    (hclose : happening.isClose = false) (hstops : ∀ closing, happening ≠ .stops closing) :
    Kept (before ++ [happening]) { course with listener, events } where
  streams := hstreams
  closings_eq := by
    rw [closings_append_singleton, hclose]
    exact h.closings_eq
  lt_closings closing hstopped := by
    rw [closings_append_singleton]
    refine Nat.lt_add_right _ (h.lt_closings closing ?_)
    simpa [(hstops closing).symm] using hstopped
  waiting_eq := by
    rw [unstopped_append hclose hstops]
    exact h.waiting_eq

namespace KeepsStreams

variable {listener : Listener} (h : KeepsStreams before listener) {stream : Nat}

include h

theorem accepts (hnew : stream ∉ accepted before) :
    KeepsStreams (before ++ [.accepts stream])
      { listener with
        connections := listener.connections ++ [stream]
        attendants := listener.attendants ++ [⟨listener.attendants.length, stream⟩] } := by
  have haccepted : accepted (before ++ [.accepts stream]) = accepted before ++ [stream] :=
    accepted_append_singleton _
  have hgone : gone (before ++ [.accepts stream]) = gone before :=
    (gone_append_singleton _).trans (List.append_nil _)
  refine ⟨?_, ?_, ?_, ?_, ?_⟩
  · rw [haccepted, ← List.concat_eq_append]
    exact h.nodup.concat hnew
  · rw [hgone]
    exact h.gone_nodup
  · rw [haccepted, hgone]
    exact fun other hother => List.mem_append_left _ (h.gone_subset hother)
  · rw [openStreams_append_accepts fun hgone => hnew (h.gone_subset hgone), h.connections_eq]
  · rw [haccepted, attendantsOf_append, h.attendants_eq, length_attendantsOf]

theorem closes (hstream : stream ∈ accepted before) (hnew : stream ∉ gone before) :
    KeepsStreams (before ++ [.closes stream])
      { listener with connections := listener.connections.filter (· ≠ stream) } := by
  have haccepted : accepted (before ++ [.closes stream]) = accepted before :=
    (accepted_append_singleton _).trans (List.append_nil _)
  have hgone : gone (before ++ [.closes stream]) = gone before ++ [stream] :=
    gone_append_singleton _
  refine ⟨?_, ?_, ?_, ?_, ?_⟩
  · rw [haccepted]
    exact h.nodup
  · rw [hgone, ← List.concat_eq_append]
    exact h.gone_nodup.concat hnew
  · rw [haccepted, hgone]
    exact List.append_subset.2
      ⟨h.gone_subset, List.cons_subset.2 ⟨hstream, List.nil_subset _⟩⟩
  · rw [openStreams_append_closes, h.connections_eq]
  · rw [haccepted, h.attendants_eq]

end KeepsStreams

theorem unstopped_append_close (h : .stops (closings before) ∉ before) :
    unstopped (before ++ [.close]) = unstopped before ++ [closings before] := by
  have hsame (closing : Nat) :
      .stops closing ∉ before ++ [Happening.close] ↔ .stops closing ∉ before := by
    simp
  have hlast : [closings before].filter (fun closing => Happening.stops closing ∉ before)
      = [closings before] := by
    simp [h]
  rw [unstopped, closings_append_singleton]
  simp only [Happening.isClose, hsame, if_true, List.range_succ, List.filter_append, hlast]
  rfl

theorem unstopped_append_stops (closing : Nat) :
    unstopped (before ++ [.stops closing]) = (unstopped before).filter (· ≠ closing) := by
  rw [unstopped, closings_append_singleton, unstopped, List.filter_filter]
  refine List.filter_congr fun other _ => ?_
  simp [and_comm]

theorem mem_unstopped {closing : Nat} :
    closing ∈ unstopped before ↔ closing < closings before ∧ .stops closing ∉ before := by
  rw [unstopped, List.mem_filter, List.mem_range, decide_eq_true_eq]

theorem find?_waitingIn {closings : List Nat} {closing : Nat} (h : closing ∈ closings) :
    (closings.map waitingIn).find? (·.1 = closing) = some (waitingIn closing) := by
  induction closings with
  | nil => exact absurd h List.not_mem_nil
  | cons first rest ih =>
    rw [List.map_cons]
    by_cases hfirst : first = closing
    · exact hfirst ▸ List.find?_cons_of_pos (decide_eq_true rfl)
    · rw [List.find?_cons_of_neg (by rwa [waitingIn, decide_eq_true_eq])]
      exact ih (List.mem_of_ne_of_mem (Ne.symm hfirst) h)

namespace Kept

/-- The listener is closed by `close`: what is open is given up, and the server is asked to stop. -/
theorem close (h : Kept before course) :
    Kept (before ++ [.close]) (course.step settings .close) ∧
      (course.step settings .close).events = course.events ++ caused settings before .close := by
  rw [Course.step, Course.goOn, proceed_close, h.streams.connections_eq]
  refine ⟨⟨h.streams.append rfl rfl, ?_, ?_, ?_⟩, rfl⟩
  · rw [closings_append_singleton]
    exact congrArg (· + 1) h.closings_eq
  · intro closing hstopped
    rw [closings_append_singleton]
    exact Nat.lt_add_right _ (h.lt_closings closing (by simpa using hstopped))
  · have hnew : .stops (closings before) ∉ before := fun hstopped =>
      Nat.lt_irrefl _ (h.lt_closings _ hstopped)
    rw [unstopped_append_close hnew, List.map_append, ← h.waiting_eq, ← h.closings_eq]
    rfl

/-- The server `stops`, and that is the end of the closing. -/
theorem stops (h : Kept before course) {closing : Nat} (hcall : closing < closings before)
    (hnew : .stops closing ∉ before) :
    Kept (before ++ [.stops closing]) (course.step settings (.stops closing)) ∧
      (course.step settings (.stops closing)).events
        = course.events ++ caused settings before (.stops closing) := by
  have hfound : course.waiting.find? (·.1 = closing) = some (waitingIn closing) := by
    rw [h.waiting_eq]
    exact find?_waitingIn (mem_unstopped.2 ⟨hcall, hnew⟩)
  rw [Course.step, hfound]
  refine ⟨⟨h.streams.append rfl rfl, ?_, ?_, ?_⟩, rfl⟩
  · rw [closings_append_singleton]
    exact h.closings_eq
  · intro other hstopped
    rw [closings_append_singleton]
    rcases List.mem_append.1 hstopped with hbefore | hlast
    · exact h.lt_closings other hbefore
    · obtain rfl := Happening.stops.inj (List.mem_singleton.1 hlast)
      exact hcall
  · rw [unstopped_append_stops]
    change course.waiting.filter (·.1 ≠ closing) = _
    rw [h.waiting_eq, List.filter_map]
    rfl

/-- Whatever happens, everything is still `Kept`, and the listener has done what it was caused
to. -/
theorem step (h : Kept before course) {happening : Happening}
    (hallowed : Allowed before happening) :
    Kept (before ++ [happening]) (course.step settings happening) ∧
      (course.step settings happening).events
        = course.events ++ caused settings before happening := by
  cases happening with
  | accepts stream =>
    rw [Course.step, Course.perform, proceed_accept]
    refine ⟨h.perform (h.streams.accepts hallowed) rfl nofun, ?_⟩
    rw [caused, h.streams.attendants_eq, length_attendantsOf]
  | closes stream =>
    obtain ⟨hstream, hnew⟩ := hallowed
    have hfound := find?_attendantsOf hstream
    rw [← h.streams.attendants_eq] at hfound
    rw [Course.step, Course.perform, proceed_closed _ _ hfound]
    exact ⟨h.perform (h.streams.closes hstream hnew) rfl nofun, rfl⟩
  | fails stream message =>
    exact ⟨h.perform (h.streams.append rfl rfl) rfl nofun, rfl⟩
  | close => exact h.close
  | stops closing => exact h.stops hallowed.1 hallowed.2

theorem run (h : Kept before course) {happenings : List Happening}
    (hpossible : PlausibleAfter before happenings) :
    Kept (before ++ happenings) (course.run settings happenings) ∧
      (course.run settings happenings).events
        = course.events ++ account settings before happenings := by
  induction happenings generalizing before course with
  | nil =>
    rw [List.append_nil]
    exact ⟨h, (List.append_nil _).symm⟩
  | cons happening happenings ih =>
    obtain ⟨hallowed, hrest⟩ := hpossible
    obtain ⟨hnext, hevents⟩ := h.step hallowed
    obtain ⟨hlast, hmore⟩ := ih hnext hrest
    rw [List.append_assoc] at hlast
    refine ⟨hlast, hmore.trans ?_⟩
    rw [hevents, List.append_assoc]
    rfl

theorem start (port : Option Port) : Kept [] { listener := { port } } where
  streams := ⟨List.nodup_nil, List.nodup_nil, List.Subset.refl _, rfl, rfl⟩
  closings_eq := rfl
  lt_closings := nofun
  waiting_eq := rfl

end Kept

end Kept

/-! ## What the instances of the service are told -/

namespace Event

/-- The attendant that is told that its stream is open. -/
def opened? : Event → Option Attendant
  | .asked (.opened attendant) => some attendant
  | _ => none

/-- The attendant that is told that its stream is closed. -/
def closed? : Event → Option Attendant
  | .asked (.closed attendant) => some attendant
  | _ => none

end Event

/-- The `Attendant`s whose streams have closed. -/
def departures (happenings : List Happening) : List Attendant :=
  (gone happenings).map fun stream => ⟨(accepted happenings).idxOf stream, stream⟩

section Told

variable {settings : Settings} {before happenings : List Happening}

theorem opened_caused (hcustom : settings.hosted = .custom) (happening : Happening) :
    attendantsOf (accepted before) ++ (caused settings before happening).filterMap Event.opened?
      = attendantsOf (accepted (before ++ [happening])) := by
  rw [accepted_append_singleton]
  cases happening with
  | accepts stream =>
    rw [caused, welcome, hcustom]
    exact (attendantsOf_append _ _).symm
  | closes stream =>
    rw [caused, leave, hcustom]
    simp [Event.opened?, Happening.accepted?]
  | fails stream message => simp [caused, Event.opened?, Happening.accepted?]
  | close => simp [caused, Event.opened?, Happening.accepted?, Function.comp_def]
  | stops closing => simp [caused, Event.opened?, Happening.accepted?]

theorem closed_caused (hcustom : settings.hosted = .custom) {happening : Happening}
    (hgone : gone before ⊆ accepted before) :
    departures before ++ (caused settings before happening).filterMap Event.closed?
      = departures (before ++ [happening]) := by
  rw [departures, departures, accepted_append_singleton, gone_append_singleton, List.map_append]
  cases happening with
  | accepts stream =>
    rw [caused, welcome, hcustom]
    have hsame : (gone before).map (fun s => Attendant.mk ((accepted before ++ [stream]).idxOf s) s)
        = (gone before).map fun s => ⟨(accepted before).idxOf s, s⟩ :=
      List.map_congr_left fun s hs => by rw [List.idxOf_append_of_mem (hgone hs)]
    simp [Event.closed?, Happening.accepted?, Happening.gone?, hsame]
  | closes stream =>
    rw [caused, leave, hcustom]
    simp [Event.closed?, Happening.accepted?, Happening.gone?]
  | fails stream message => simp [caused, Event.closed?, Happening.accepted?, Happening.gone?]
  | close => simp [caused, Event.closed?, Happening.accepted?, Happening.gone?, Function.comp_def]
  | stops closing => simp [caused, Event.closed?, Happening.accepted?, Happening.gone?]

theorem gone_subset_append {happening : Happening} (hgone : gone before ⊆ accepted before)
    (hallowed : Allowed before happening) :
    gone (before ++ [happening]) ⊆ accepted (before ++ [happening]) := by
  rw [gone_append_singleton, accepted_append_singleton]
  refine List.append_subset.2 ⟨List.subset_append_of_subset_left _ hgone, fun stream hstream => ?_⟩
  cases happening with
  | closes closed =>
    obtain rfl := List.mem_singleton.1 hstream
    exact List.mem_append_left _ hallowed.1
  | accepts _ | fails _ _ | close | stops _ => exact absurd hstream List.not_mem_nil

/-- Every stream has its attendant told of it, as `opened?` finds, when it is accepted. -/
theorem opened_account (hcustom : settings.hosted = .custom) :
    attendantsOf (accepted before)
        ++ (account settings before happenings).filterMap Event.opened?
      = attendantsOf (accepted (before ++ happenings)) := by
  induction happenings generalizing before with
  | nil => rw [account, List.filterMap_nil, List.append_nil, List.append_nil]
  | cons happening happenings ih =>
    rw [account, List.filterMap_append, ← List.append_assoc, opened_caused hcustom, ih,
      List.append_assoc, List.singleton_append]

/-- It is the same attendant that is told of it, as `closed?` finds, when it closes. -/
theorem closed_account (hcustom : settings.hosted = .custom)
    (hpossible : PlausibleAfter before happenings) (hgone : gone before ⊆ accepted before) :
    departures before ++ (account settings before happenings).filterMap Event.closed?
      = departures (before ++ happenings) := by
  induction happenings generalizing before with
  | nil => rw [account, List.filterMap_nil, List.append_nil, List.append_nil]
  | cons happening happenings ih =>
    obtain ⟨hallowed, hrest⟩ := hpossible
    rw [account, List.filterMap_append, ← List.append_assoc, closed_caused hcustom hgone,
      ih hrest (gone_subset_append hgone hallowed), List.append_assoc, List.singleton_append]

theorem nodup_departures (h : (gone happenings).Nodup) : (departures happenings).Nodup := by
  refine List.Nodup.of_map Attendant.stream ?_
  rw [departures, List.map_map]
  exact (List.map_id' (gone happenings)).symm ▸ h

end Told

/-- A listener keeps exact books of its connections, in whatever order streams are accepted,
close and fail and the listener is closed. Its connections are the `openStreams`, those that were
accepted and have not closed, each of them once. What it does is the `account` of what happens: a
stream that is accepted gets an instance of the service of its own, which is told of it then, and
again when it closes; a closing gives up just the streams that are open when it begins, and it has
ended when the server says that it has stopped. If the service has something to say, the instances
that were told of an open stream are one for each stream that was accepted, and those that were told
of a closed one are the instances of the streams that have closed, each of them once. -/
theorem bookkeeping_is_exact (settings : Settings) (port : Option Port)
    (happenings : List Happening) (hpossible : Plausible happenings) :
    let course := Course.run settings { listener := { port } } happenings
    course.listener.connections = openStreams happenings ∧
      course.listener.connections.Nodup ∧
      course.events = account settings [] happenings ∧
      (settings.hosted = .custom →
        course.events.filterMap Event.opened? = attendantsOf (accepted happenings) ∧
          course.events.filterMap Event.closed? = departures happenings ∧
          (departures happenings).Nodup) := by
  intro course
  obtain ⟨hkept, hevents⟩ : Kept happenings course ∧
      course.events = account settings [] happenings :=
    (Kept.start port).run hpossible
  refine ⟨hkept.streams.connections_eq, ?_, hevents, fun hcustom => ⟨?_, ?_, ?_⟩⟩
  · rw [hkept.streams.connections_eq]
    exact hkept.streams.nodup.filter _
  · rw [hevents]
    exact (opened_account hcustom : attendantsOf (accepted []) ++ _ = _)
  · rw [hevents]
    exact closed_account hcustom hpossible (List.Subset.refl _)
  · exact nodup_departures hkept.streams.gone_nodup

/-- Two streams that are open when the listener closes, and one that is not any more. -/
def busyDay : List Happening :=
  [.accepts 4, .accepts 7, .fails 4 "read ECONNRESET", .closes 4, .accepts 9, .close, .closes 9,
    .closes 7, .stops 0]

/-- What a listener has done with its books after the `busyDay`. -/
theorem books_of_busyDay :
    let course := Course.run ⟨.custom, .string "127.0.0.1", .ofNat 0⟩ { listener := {} } busyDay
    Plausible busyDay ∧ course.listener.connections = [] ∧
      course.events.filterMap Event.opened? = [⟨0, 4⟩, ⟨1, 7⟩, ⟨2, 9⟩] ∧
      course.events.filterMap Event.closed? = [⟨0, 4⟩, ⟨2, 9⟩, ⟨1, 7⟩] := by
  have hpossible : Plausible busyDay := by decide
  obtain ⟨hconnections, -, -, htold⟩ :=
    bookkeeping_is_exact ⟨.custom, .string "127.0.0.1", .ofNat 0⟩ none busyDay hpossible
  obtain ⟨hopened, hclosed, -⟩ := htold rfl
  exact ⟨hpossible, hconnections, hopened, hclosed⟩

end Listener

end Outpost
