import Outpost.Connection

/-!
# Closing once

A service hears of its connection while the connection is being opened or closed, and it can do with
it what it likes before it goes on: change its configuration, or close it, as often as it likes and
from within closing it. So the activities on a connection nest, and it is always the innermost one
that goes on. `Story` follows all of them: the opening of a connection is activity `0`, and each
closing of it is a further one.

However they nest and whatever the service does, the first closing takes its course: the service is
told, if there is one to tell, and then the stream is given up, once, and what the service failed
with is what this closing fails with. The connection counts as closed from its first step on. Every
other closing ends where it began, and asks for nothing (`connection_closes_once`).

## Contents

* `Program.advance`: a program up to its next request.
* `Story`, `Story.step`, `Story.run`: what happens on a connection.
* `Opening`, `Parting`, `Closing`: how far its opening and its first closing have come.
* `Orderly`, `Orderly.step`: what every step preserves.
* `farewell`, `connection_closes_once`.
-/

namespace Outpost

namespace Program

variable {σ : Type} {I : Interface} {α : Type}

/-- Where a program stands: it has `ended`, or it waits for the reply to a request. -/
inductive Pause (σ : Type) (I : Interface) (α : Type) where
  | ended (value : α)
  | waits (request : I.Request) (next : I.Reply request → Program σ I α)

/-- Carries a program out up to its next `ask`. -/
def advance : Program σ I α → σ → σ × Pause σ I α
  | .done a, s => (s, .ended a)
  | .read next, s => (next s).advance s
  | .write t next, _ => next.advance t
  | .ask r next, s => (s, .waits r next)

end Program

namespace Connection

/-! ## What happens on a connection -/

/-- An activity on a `Connection` that waits for a reply. -/
structure Waiting where
  activity : Nat
  request : Request
  next : interface.Reply request → Program Connection interface (Except Fault Unit)

/-- What happens in an activity: it begins, it asks for something, it gets its reply, it ends. -/
inductive Event where
  | begun (activity : Nat)
  | asked (activity : Nat) (request : Request)
  | answered (activity : Nat) (exchange : Program.Exchange interface)
  | ended (activity : Nat) (result : Except Fault Unit)

namespace Event

def activity : Event → Nat
  | .begun activity => activity
  | .asked activity _ => activity
  | .answered activity _ => activity
  | .ended activity _ => activity

/-- What is asked for by an `Event`. -/
def request? : Event → Option Request
  | .asked _ request => some request
  | _ => none

end Event

/-- The events in one `activity`. -/
def eventsIn (activity : Nat) (events : List Event) : List Event :=
  events.filter (·.activity = activity)

/-- Everything that is asked for in some `events`. -/
def requests (events : List Event) : List Request :=
  events.filterMap Event.request?

/-- What may happen to a `Connection` from outside of it. -/
inductive Stimulus where
  /-- Someone closes it: whoever has it, or a service that is just being told something. -/
  | close
  /-- Someone changes its `config`. -/
  | configure (config : Json)
  /-- What was asked for last and has no reply yet gets one, from `reply`. -/
  | answer (reply : (r : Request) → interface.Reply r)

/-- A `connection`, the number of activities that have begun on it, those that have not ended, with
the innermost first, and everything that has happened. -/
structure Story where
  connection : Connection
  begun : Nat := 0
  waiting : List Waiting := []
  events : List Event := []

namespace Story

/-- An activity goes on with a program up to its next request, by `advance`. -/
def goOn (story : Story) (activity : Nat)
    (p : Program Connection interface (Except Fault Unit)) : Story :=
  match p.advance story.connection with
  | (connection, .ended result) =>
    { story with connection, events := story.events ++ [.ended activity result] }
  | (connection, .waits request next) =>
    { story with
      connection
      waiting := ⟨activity, request, next⟩ :: story.waiting
      events := story.events ++ [.asked activity request] }

/-- A further activity begins, with the program `p`. -/
def start (story : Story) (p : Program Connection interface (Except Fault Unit)) : Story :=
  { story with begun := story.begun + 1, events := story.events ++ [Event.begun story.begun] }.goOn
    story.begun p

/-- A connection is opened by `establish` on a stream. -/
def opening (stream : Machine.Socket) (settings : Settings) : Story :=
  { connection := fresh stream settings : Story }.start announce.outcome

/-- Something happens to the connection of a `Story`. -/
def step (story : Story) : Stimulus → Story
  | .close => story.start close.outcome
  | .configure config => { story with connection.config := config }
  | .answer reply =>
    match story.waiting with
    | [] => story
    | ⟨activity, request, next⟩ :: waiting =>
      { story with
        waiting
        events := story.events ++ [Event.answered activity ⟨request, reply request⟩] }.goOn
          activity (next (reply request))

/-- One thing after another happens, each a `step`. -/
def run (story : Story) (stimuli : List Stimulus) : Story :=
  stimuli.foldl step story

section Steps

variable {story : Story} {activity : Nat}
  {p : Program Connection interface (Except Fault Unit)} {connection : Connection}
  {request : Request}
  {next : interface.Reply request → Program Connection interface (Except Fault Unit)}
  {result : Except Fault Unit}

theorem start_of_ended (h : p.advance story.connection = (connection, .ended result)) :
    story.start p
      = { story with
          connection
          begun := story.begun + 1
          events := story.events ++ [.begun story.begun, .ended story.begun result] } := by
  rw [start, goOn, h]
  dsimp only
  rw [List.append_assoc]
  rfl

theorem start_of_waits (h : p.advance story.connection = (connection, .waits request next)) :
    story.start p
      = { connection
          begun := story.begun + 1
          waiting := ⟨story.begun, request, next⟩ :: story.waiting
          events := story.events ++ [.begun story.begun, .asked story.begun request] } := by
  rw [start, goOn, h]
  dsimp only
  rw [List.append_assoc]
  rfl

variable {waiting : List Waiting} {reply : (r : Request) → interface.Reply r}

theorem step_answer_of_ended (hwaiting : story.waiting = ⟨activity, request, next⟩ :: waiting)
    (h : (next (reply request)).advance story.connection = (connection, .ended result)) :
    story.step (.answer reply)
      = { story with
          connection
          waiting
          events := story.events ++
            [.answered activity ⟨request, reply request⟩, .ended activity result] } := by
  rw [step, hwaiting]
  dsimp only
  rw [goOn, h]
  dsimp only
  rw [List.append_assoc]
  rfl

theorem step_answer_of_waits {request' : Request}
    {next' : interface.Reply request' → Program Connection interface (Except Fault Unit)}
    (hwaiting : story.waiting = ⟨activity, request, next⟩ :: waiting)
    (h : (next (reply request)).advance story.connection = (connection, .waits request' next')) :
    story.step (.answer reply)
      = { story with
          connection
          waiting := ⟨activity, request', next'⟩ :: waiting
          events := story.events ++
            [.answered activity ⟨request, reply request⟩, .asked activity request'] } := by
  rw [step, hwaiting]
  dsimp only
  rw [goOn, h]
  dsimp only
  rw [List.append_assoc]
  rfl

theorem step_answer_of_nil (hwaiting : story.waiting = []) :
    story.step (.answer reply) = story := by
  rw [step, hwaiting]

end Steps

end Story

/-! ## The programs of the activities -/

/-- What is left of a `close` whose service has been told. -/
def giveUp (result : Except Fault Unit) : Program Connection interface (Except Fault Unit) :=
  .read fun connection => .ask (.destroy connection.stream) fun _ => .done result

section Advance

variable {connection : Connection} {name : String}

/-- A closed connection is not closed again by `close`. -/
theorem advance_close_of_closed (h : connection.closed = true) :
    close.outcome.advance connection = (connection, .ended (.ok ())) := by
  obtain ⟨stream, service, config, closed⟩ := connection
  obtain rfl := h
  rfl

/-- An open connection is closed before its service hears of it. -/
theorem advance_close_custom (hopen : connection.closed = false)
    (hservice : connection.service = .custom name) :
    close.outcome.advance connection
      = ({ connection with closed := true },
          .waits (.closed name connection.config true) giveUp) := by
  obtain ⟨stream, service, config, closed⟩ := connection
  obtain rfl := hopen
  obtain rfl := hservice
  rfl

theorem advance_close_of_nobody (hopen : connection.closed = false)
    (hservice : ∀ name, connection.service ≠ .custom name) :
    close.outcome.advance connection
      = ({ connection with closed := true },
          .waits (.destroy connection.stream) fun _ => .done (.ok ())) := by
  obtain ⟨stream, service, config, closed⟩ := connection
  obtain rfl := hopen
  cases service with
  | silent | classic => rfl
  | custom name => exact absurd rfl (hservice name)

end Advance

/-! ## How far the activities have come -/

/-- The opening of a connection: what it waits for, and which `Event`s there were in it. -/
inductive Opening (service : Service) (config : Json) : Option Waiting → List Event → Prop
  | unnoticed : (∀ name, service ≠ .custom name) →
      Opening service config none [.begun 0, .ended 0 (.ok ())]
  | waits {name : String} : service = .custom name →
      Opening service config (some ⟨0, .opened name config false, .done⟩)
        [.begun 0, .asked 0 (.opened name config false)]
  | finished {name : String} (reply : Except Fault Unit) : service = .custom name →
      Opening service config none
        [.begun 0, .asked 0 (.opened name config false),
          .answered 0 ⟨.opened name config false, reply⟩, .ended 0 reply]

/-- What happens in the first closing of a connection before its stream is given up. The
configuration may have become another one. -/
inductive Parting (service : Service) : List Event → Except Fault Unit → Prop
  | nobody : (∀ name, service ≠ .custom name) → Parting service [.begun 1] (.ok ())
  | told {name : String} (config : Json) (reply : Except Fault Unit) : service = .custom name →
      Parting service
        [.begun 1, .asked 1 (.closed name config true),
          .answered 1 ⟨.closed name config true, reply⟩] reply

/-- The first closing of a connection: what it waits for, and which `Event`s there were in it. -/
inductive Closing (stream : Machine.Socket) (service : Service) :
    Option Waiting → List Event → Prop
  | ahead : Closing stream service none []
  | parting {name : String} (config : Json) : service = .custom name →
      Closing stream service (some ⟨1, .closed name config true, giveUp⟩)
        [.begun 1, .asked 1 (.closed name config true)]
  | givingUp {before : List Event} {result : Except Fault Unit} : Parting service before result →
      Closing stream service (some ⟨1, .destroy stream, fun _ => .done result⟩)
        (before ++ [.asked 1 (.destroy stream)])
  | finished {before : List Event} {result : Except Fault Unit} : Parting service before result →
      Closing stream service none
        (before ++
          [.asked 1 (.destroy stream), .answered 1 ⟨.destroy stream, ()⟩, .ended 1 result])

/-- What is so at any time in the story of a connection; `opens` and `closes` are what waits in its
opening and in its first closing. -/
structure Orderly (stream : Machine.Socket) (service : Service) (config : Json)
    (opens closes : Option Waiting) (story : Story) : Prop where
  stream_eq : story.connection.stream = stream
  service_eq : story.connection.service = service
  begun_pos : 0 < story.begun
  /-- The connection is closed once a closing has begun. -/
  closed_eq : story.connection.closed = decide (1 < story.begun)
  /-- Nothing else ever waits, and a closing that waits is inside of an opening that does: it comes
  first in `waiting`. -/
  waiting_eq : story.waiting = closes.toList ++ opens.toList
  opening : Opening service config opens (eventsIn 0 story.events)
  closing : Closing stream service closes (eventsIn 1 story.events)
  ahead_iff : eventsIn 1 story.events = [] ↔ story.begun = 1
  later : ∀ n, 1 < n →
    eventsIn n story.events = if n < story.begun then [.begun n, .ended n (.ok ())] else []
  requests_eq : requests story.events
    = requests (eventsIn 0 story.events ++ eventsIn 1 story.events)

section Events

variable {activity : Nat} {events more : List Event}

theorem eventsIn_eq_self (h : ∀ event ∈ events, event.activity = activity) :
    eventsIn activity events = events :=
  List.filter_eq_self.2 fun event hevent => decide_eq_true (h event hevent)

theorem eventsIn_eq_nil (h : ∀ event ∈ events, event.activity = activity) {other : Nat}
    (hother : other ≠ activity) : eventsIn other events = [] :=
  List.filter_eq_nil_iff.2 fun event hevent => by
    rw [h event hevent, decide_eq_true_eq]
    exact hother.symm

/-- What is added in an `activity` is added to its events. -/
theorem eventsIn_append_self (h : ∀ event ∈ more, event.activity = activity) :
    eventsIn activity (events ++ more) = eventsIn activity events ++ more := by
  rw [eventsIn, List.filter_append, ← eventsIn, ← eventsIn, eventsIn_eq_self h]

/-- It is not added to those of any other one. -/
theorem eventsIn_append_other (h : ∀ event ∈ more, event.activity = activity) {other : Nat}
    (hother : other ≠ activity) : eventsIn other (events ++ more) = eventsIn other events := by
  rw [eventsIn, List.filter_append, ← eventsIn, ← eventsIn, eventsIn_eq_nil h hother,
    List.append_nil]

theorem requests_append : requests (events ++ more) = requests events ++ requests more :=
  List.filterMap_append

end Events

section Orderly

variable {stream : Machine.Socket} {service : Service} {config : Json}
  {opens closes : Option Waiting} {story : Story}

theorem Opening.activity_eq {events : List Event} (h : Opening service config opens events) :
    ∀ event ∈ events, event.activity = 0 := by
  cases h <;> simp [Event.activity]

/-- A closing in which nothing has happened waits for nothing. -/
theorem Closing.eq_none {events : List Event} (h : Closing stream service closes events)
    (hevents : events = []) : closes = none := by
  cases h with
  | ahead => rfl
  | parting config hservice => exact absurd hevents (List.cons_ne_nil _ _)
  | givingUp hbefore => simp at hevents
  | finished hbefore => rfl

/-- A story of nothing but an `Opening` is orderly. -/
theorem Orderly.of_opening {now : Json} {events : List Event}
    (h : Opening service config opens events) :
    Orderly stream service config opens none
      ⟨⟨stream, service, now, false⟩, 1, opens.toList, events⟩ := by
  have hopening : eventsIn 0 events = events := eventsIn_eq_self h.activity_eq
  have hother {n : Nat} (hn : 0 < n) : eventsIn n events = [] :=
    eventsIn_eq_nil h.activity_eq (Nat.ne_of_gt hn)
  refine ⟨rfl, rfl, Nat.one_pos, rfl, rfl, ?_, ?_, iff_of_true (hother Nat.one_pos) rfl, ?_, ?_⟩
  · rwa [hopening]
  · rw [hother Nat.one_pos]
    exact .ahead
  · intro n hn
    rw [hother (Nat.zero_lt_of_lt hn), if_neg (Nat.lt_asymm hn)]
  · rw [hopening, hother Nat.one_pos, List.append_nil]

/-- A connection is opened: its service is told, if there is one to tell. That story is
`Orderly`. -/
theorem orderly_opening (stream : Machine.Socket) (settings : Settings) :
    ∃ opens, Orderly stream (settings.service.getD .silent) (copyConfig settings.config) opens none
      (.opening stream settings) := by
  obtain ⟨service, config⟩ := settings
  rcases service with _ | _ | _ | name
  · exact ⟨none, .of_opening (.unnoticed nofun)⟩
  · exact ⟨none, .of_opening (.unnoticed nofun)⟩
  · exact ⟨none, .of_opening (.unnoticed nofun)⟩
  · exact ⟨_, .of_opening (.waits rfl)⟩

namespace Orderly

/-- The opening goes on, and nothing is asked for in it. -/
theorem append_opening (h : Orderly stream service config opens none story) {more : List Event}
    {opens' : Option Waiting} (hmore : ∀ event ∈ more, event.activity = 0)
    (hrequests : requests more = [])
    (hopening : Opening service config opens' (eventsIn 0 story.events ++ more)) :
    Orderly stream service config opens' none
      { story with waiting := opens'.toList, events := story.events ++ more } := by
  have hself : eventsIn 0 (story.events ++ more) = eventsIn 0 story.events ++ more :=
    eventsIn_append_self hmore
  have hother {n : Nat} (hn : 0 < n) :
      eventsIn n (story.events ++ more) = eventsIn n story.events :=
    eventsIn_append_other hmore (Nat.ne_of_gt hn)
  refine ⟨h.stream_eq, h.service_eq, h.begun_pos, h.closed_eq, rfl, ?_, ?_, ?_, ?_, ?_⟩
  · rwa [hself]
  · rw [hother Nat.one_pos]
    exact h.closing
  · rw [hother Nat.one_pos]
    exact h.ahead_iff
  · intro n hn
    rw [hother (Nat.zero_lt_of_lt hn)]
    exact h.later n hn
  · rw [hself, hother Nat.one_pos, requests_append, hrequests, h.requests_eq, requests_append,
      requests_append, requests_append, hrequests, List.append_nil, List.append_nil]

/-- The first closing goes on, or it begins. -/
theorem append_closing (h : Orderly stream service config opens closes story) {more : List Event}
    {closes' : Option Waiting} {connection : Connection} {begun : Nat}
    (hstream : connection.stream = stream) (hservice : connection.service = service)
    (hclosed : connection.closed = true) (hbegun : 1 < begun)
    (hlater : ∀ n, 1 < n → (n < begun ↔ n < story.begun))
    (hmore : ∀ event ∈ more, event.activity = 1) (hsome : more ≠ [])
    (hclosing : Closing stream service closes' (eventsIn 1 story.events ++ more)) :
    Orderly stream service config opens closes'
      ⟨connection, begun, closes'.toList ++ opens.toList, story.events ++ more⟩ := by
  have hself : eventsIn 1 (story.events ++ more) = eventsIn 1 story.events ++ more :=
    eventsIn_append_self hmore
  have hother {n : Nat} (hn : n ≠ 1) :
      eventsIn n (story.events ++ more) = eventsIn n story.events :=
    eventsIn_append_other hmore hn
  refine ⟨hstream, hservice, Nat.zero_lt_of_lt hbegun, ?_, rfl, ?_, ?_, ?_, ?_, ?_⟩
  · rw [hclosed, decide_eq_true hbegun]
  · rw [hother Nat.zero_ne_one]
    exact h.opening
  · rwa [hself]
  · rw [hself]
    exact iff_of_false (fun hnone => hsome (List.append_eq_nil_iff.1 hnone).2) (Nat.ne_of_gt hbegun)
  · intro n hn
    rw [hother (Nat.ne_of_gt hn), h.later n hn]
    simp only [hlater n hn]
  · rw [hself, hother Nat.zero_ne_one, ← List.append_assoc, requests_append, requests_append,
      h.requests_eq]

/-- A further closing begins and ends. -/
theorem append_later (h : Orderly stream service config opens closes story)
    (hbegun : 1 < story.begun) :
    Orderly stream service config opens closes
      { story with
        begun := story.begun + 1
        events := story.events ++ [.begun story.begun, .ended story.begun (.ok ())] } := by
  have hmore : ∀ event ∈ [Event.begun story.begun, .ended story.begun (.ok ())],
      event.activity = story.begun := by
    simp [Event.activity]
  have hother {n : Nat} (hn : n ≠ story.begun) :
      eventsIn n (story.events ++ [.begun story.begun, .ended story.begun (.ok ())])
        = eventsIn n story.events :=
    eventsIn_append_other hmore hn
  have hzero : 0 ≠ story.begun := Nat.ne_of_lt (Nat.zero_lt_of_lt hbegun)
  refine ⟨h.stream_eq, h.service_eq, Nat.succ_pos _, ?_, h.waiting_eq, ?_, ?_, ?_, ?_, ?_⟩
  · rw [h.closed_eq, decide_eq_true hbegun, decide_eq_true (Nat.lt_succ_of_lt hbegun)]
  · rw [hother hzero]
    exact h.opening
  · rw [hother (Nat.ne_of_lt hbegun)]
    exact h.closing
  · rw [hother (Nat.ne_of_lt hbegun), h.ahead_iff]
    exact iff_of_false (Nat.ne_of_gt hbegun) (Nat.ne_of_gt (Nat.lt_succ_of_lt hbegun))
  · intro n hn
    by_cases hnew : n = story.begun
    · subst hnew
      rw [eventsIn_append_self hmore, h.later _ hn, if_neg (Nat.lt_irrefl _),
        if_pos (Nat.lt_succ_self _), List.nil_append]
    · rw [hother hnew, h.later n hn]
      have hiff : n < story.begun + 1 ↔ n < story.begun := by omega
      simp only [hiff]
  · rw [hother hzero, hother (Nat.ne_of_lt hbegun), requests_append, ← h.requests_eq]
    exact List.append_nil _

/-- A closing begins by `close`. -/
theorem start_close (h : Orderly stream service config opens closes story) :
    ∃ closes', Orderly stream service config opens closes' (story.start close.outcome) := by
  by_cases hfirst : story.begun = 1
  · have hopen : story.connection.closed = false := by
      rw [h.closed_eq, hfirst]
      rfl
    have hnone : eventsIn 1 story.events = [] := h.ahead_iff.2 hfirst
    have hwaiting : story.waiting = opens.toList := by
      rw [h.waiting_eq, h.closing.eq_none hnone]
      rfl
    have happend {waiting : Waiting} {request : Request}
        (hclosing : Closing stream service (some waiting) [.begun 1, .asked 1 request]) :
        Orderly stream service config opens (some waiting)
          ⟨{ story.connection with closed := true }, 1 + 1, waiting :: story.waiting,
            story.events ++ [.begun 1, .asked 1 request]⟩ := by
      rw [hwaiting]
      refine h.append_closing h.stream_eq h.service_eq rfl Nat.one_lt_two (fun n hn => ?_) ?_
        (List.cons_ne_nil _ _) ?_
      · omega
      · simp [Event.activity]
      · rwa [hnone]
    by_cases hservice : ∃ name, service = .custom name
    · obtain ⟨name, rfl⟩ := hservice
      rw [Story.start_of_waits (advance_close_custom hopen h.service_eq), hfirst]
      exact ⟨_, happend (.parting _ rfl)⟩
    · rw [not_exists] at hservice
      obtain rfl := h.stream_eq
      rw [Story.start_of_waits (advance_close_of_nobody hopen (h.service_eq ▸ hservice)), hfirst]
      exact ⟨_, happend (.givingUp (.nobody hservice))⟩
  · have hbegun : 1 < story.begun := by
      have := h.begun_pos
      omega
    have hclosed : story.connection.closed = true := by
      rw [h.closed_eq, decide_eq_true hbegun]
    refine ⟨closes, ?_⟩
    rw [Story.start_of_ended (advance_close_of_closed hclosed)]
    exact h.append_later hbegun

/-- The opening gets its reply, and that is the end of it. -/
theorem answer_opening {waiting : Waiting}
    (h : Orderly stream service config (some waiting) none story)
    (reply : (r : Request) → interface.Reply r) :
    Orderly stream service config none none (story.step (.answer reply)) := by
  have hopening := h.opening
  have hwaiting := h.waiting_eq
  generalize hevents : eventsIn 0 story.events = events at hopening
  cases hopening with
  | waits hservice =>
    rw [Story.step_answer_of_ended hwaiting rfl]
    refine h.append_opening ?_ rfl ?_
    · simp [Event.activity]
    · rw [hevents]
      exact .finished _ hservice

/-- The first closing gets a reply: its service has been told, or its stream given up. -/
theorem answer_closing {waiting : Waiting}
    (h : Orderly stream service config opens (some waiting) story)
    (reply : (r : Request) → interface.Reply r) :
    ∃ closes', Orderly stream service config opens closes' (story.step (.answer reply)) := by
  have hclosing := h.closing
  have hwaiting := h.waiting_eq
  generalize hevents : eventsIn 1 story.events = events at hclosing
  have hbegun : 1 < story.begun := by
    have hpos := h.begun_pos
    have hfirst : story.begun ≠ 1 := fun hfirst =>
      absurd (h.closing.eq_none (h.ahead_iff.2 hfirst)) nofun
    omega
  have hclosed : story.connection.closed = true := by
    rw [h.closed_eq, decide_eq_true hbegun]
  cases hclosing with
  | parting config hservice =>
    obtain rfl := h.stream_eq
    rw [Story.step_answer_of_waits hwaiting rfl]
    refine ⟨some ⟨1, .destroy _, fun _ => .done _⟩, h.append_closing rfl h.service_eq hclosed hbegun
      (fun _ _ => Iff.rfl) ?_ (List.cons_ne_nil _ _) ?_⟩
    · simp [Event.activity]
    · rw [hevents]
      exact .givingUp (.told config _ hservice)
  | givingUp hbefore =>
    rw [Story.step_answer_of_ended hwaiting rfl]
    refine ⟨none, h.append_closing h.stream_eq h.service_eq hclosed hbegun (fun _ _ => Iff.rfl) ?_
      (List.cons_ne_nil _ _) ?_⟩
    · simp [Event.activity]
    · rw [hevents, List.append_assoc]
      exact .finished hbefore

/-- Whatever happens, a story stays `Orderly`. -/
theorem step (h : Orderly stream service config opens closes story) (stimulus : Stimulus) :
    ∃ opens' closes', Orderly stream service config opens' closes' (story.step stimulus) := by
  cases stimulus with
  | close => exact ⟨opens, h.start_close⟩
  | configure config =>
    exact ⟨opens, closes, h.stream_eq, h.service_eq, h.begun_pos, h.closed_eq, h.waiting_eq,
      h.opening, h.closing, h.ahead_iff, h.later, h.requests_eq⟩
  | answer reply =>
    cases closes with
    | some waiting => exact ⟨opens, h.answer_closing reply⟩
    | none =>
      cases opens with
      | some waiting => exact ⟨none, none, h.answer_opening reply⟩
      | none =>
        rw [Story.step_answer_of_nil h.waiting_eq]
        exact ⟨none, none, h⟩

theorem run (h : Orderly stream service config opens closes story) (stimuli : List Stimulus) :
    ∃ opens' closes', Orderly stream service config opens' closes' (story.run stimuli) := by
  induction stimuli generalizing story opens closes with
  | nil => exact ⟨opens, closes, h⟩
  | cons stimulus stimuli ih =>
    obtain ⟨opens', closes', hnext⟩ := h.step stimulus
    exact ih hnext

end Orderly

/-! ## The course of the first closing -/

/-- What is asked for when a connection is opened, by its `Service`. -/
def announcement (config : Json) : Service → List Request
  | .custom name => [.opened name config false]
  | _ => []

/-- The course of the first closing of a connection. The service, if there is one to tell, finds the
connection closed already, and what it replies is how the closing ends; but first the stream is
given up. -/
def farewell (stream : Machine.Socket) (config : Json) (reply : Except Fault Unit) :
    Service → List Event
  | .custom name =>
    [.begun 1, .asked 1 (.closed name config true),
      .answered 1 ⟨.closed name config true, reply⟩, .asked 1 (.destroy stream),
      .answered 1 ⟨.destroy stream, ()⟩, .ended 1 reply]
  | _ =>
    [.begun 1, .asked 1 (.destroy stream), .answered 1 ⟨.destroy stream, ()⟩, .ended 1 (.ok ())]

theorem Opening.requests_eq {events : List Event} (h : Opening service config opens events) :
    requests events = announcement config service := by
  cases h with
  | unnoticed hservice =>
    cases service with
    | silent | classic => rfl
    | custom name => exact absurd rfl (hservice name)
  | waits hservice =>
    rw [hservice]
    rfl
  | finished reply hservice =>
    rw [hservice]
    rfl

/-- Before the stream is given up, the closing has come as far as its `farewell` says. -/
theorem Parting.append_eq_farewell {before : List Event} {result : Except Fault Unit}
    (h : Parting service before result) :
    ∃ config reply,
      before ++ [.asked 1 (.destroy stream), .answered 1 ⟨.destroy stream, ()⟩, .ended 1 result]
        = farewell stream config reply service := by
  cases h with
  | nobody hservice =>
    cases service with
    | silent | classic => exact ⟨.null, .ok (), rfl⟩
    | custom name => exact absurd rfl (hservice name)
  | told config _ hservice =>
    rw [hservice]
    exact ⟨config, result, rfl⟩

theorem Parting.length_pos {before : List Event} {result : Except Fault Unit}
    (h : Parting service before result) : 0 < before.length := by
  cases h <;> exact Nat.succ_pos _

/-- A closing that has begun asks for something at once, follows its `farewell`, and has taken all
of it if it waits for nothing. -/
theorem Closing.follows {events : List Event} (h : Closing stream service closes events)
    (hevents : events ≠ []) :
    ∃ config reply, events <+: farewell stream config reply service ∧ 2 ≤ events.length ∧
      (closes = none → events = farewell stream config reply service) := by
  cases h with
  | ahead => exact absurd rfl hevents
  | parting config hservice =>
    rw [hservice]
    exact ⟨config, .ok (), ⟨_, rfl⟩, Nat.le_refl 2, nofun⟩
  | givingUp hbefore =>
    obtain ⟨config, reply, hcourse⟩ := hbefore.append_eq_farewell
    refine ⟨config, reply, ⟨_, (List.append_assoc ..).trans hcourse⟩, ?_, nofun⟩
    rw [List.length_append]
    exact Nat.succ_le_succ hbefore.length_pos
  | finished hbefore =>
    obtain ⟨config, reply, hcourse⟩ := hbefore.append_eq_farewell
    refine ⟨config, reply, ⟨[], (List.append_nil _).trans hcourse⟩, ?_, fun _ => hcourse⟩
    rw [List.length_append]
    exact Nat.le_add_left 2 (_ + 1)

end Orderly

namespace Stimulus

def isClose : Stimulus → Bool
  | .close => true
  | _ => false

end Stimulus

theorem Story.begun_goOn (story : Story) (activity : Nat)
    (p : Program Connection interface (Except Fault Unit)) :
    (story.goOn activity p).begun = story.begun := by
  rw [goOn]
  split <;> rfl

/-- Every closing is an activity of its own, counted by `begun`. -/
theorem Story.begun_run (story : Story) (stimuli : List Stimulus) :
    (story.run stimuli).begun = story.begun + stimuli.countP Stimulus.isClose := by
  induction stimuli generalizing story with
  | nil => rfl
  | cons stimulus stimuli ih =>
    have hstep : (story.step stimulus).begun
        = story.begun + (if stimulus.isClose then 1 else 0) := by
      cases stimulus with
      | close => exact begun_goOn ..
      | configure config => rfl
      | answer reply =>
        rw [step]
        cases story.waiting with
        | nil => rfl
        | cons waiting rest => exact begun_goOn ..
    rw [List.countP_cons, run, List.foldl_cons, ← run, ih, hstep]
    omega

theorem Closing.of_waiting {stream : Machine.Socket} {service : Service} {waiting : Waiting}
    {events : List Event} (h : Closing stream service (some waiting) events) :
    waiting.activity = 1 := by
  cases h <;> rfl

/-- However often a connection is closed, by whomever and from within whatever, and whatever its
service does, it is closed once. It counts as closed from the first call on. That call takes the
course of a `farewell`: what has happened in it so far is the start of one, from the first request
on, and it is all of it unless the call still waits. No other call asks for anything, and each of
them succeeds. -/
theorem connection_closes_once (stream : Machine.Socket) (settings : Settings)
    (stimuli : List Stimulus) :
    let story := (Story.opening stream settings).run stimuli
    let service := settings.service.getD .silent
    let calls := stimuli.countP Stimulus.isClose
    story.connection.closed = decide (0 < calls) ∧
      (0 < calls → ∃ config reply,
        eventsIn 1 story.events <+: farewell stream config reply service ∧
          2 ≤ (eventsIn 1 story.events).length ∧
          ((∀ waiting ∈ story.waiting, waiting.activity ≠ 1) →
            eventsIn 1 story.events = farewell stream config reply service)) ∧
      (∀ n, 1 < n → n ≤ calls → eventsIn n story.events = [.begun n, .ended n (.ok ())]) ∧
      requests story.events
        = announcement (copyConfig settings.config) service
          ++ if 0 < calls then requests (eventsIn 1 story.events) else [] := by
  intro story service calls
  obtain ⟨opens, closes, h⟩ : ∃ opens closes,
      Orderly stream service (copyConfig settings.config) opens closes story :=
    let ⟨_, hopening⟩ := orderly_opening stream settings
    hopening.run stimuli
  have hbegun : story.begun = 1 + calls := by
    rw [Story.begun_run, Story.opening, Story.start, Story.begun_goOn]
  clear_value story service calls
  refine ⟨?_, fun hcalls => ?_, fun n hn hcall => ?_, ?_⟩
  · rw [h.closed_eq, hbegun]
    exact decide_eq_decide.2 (by omega)
  · have hevents : eventsIn 1 story.events ≠ [] := fun hnone => by
      have := h.ahead_iff.1 hnone
      omega
    obtain ⟨config, reply, hcourse, hlength, hall⟩ := h.closing.follows hevents
    refine ⟨config, reply, hcourse, hlength, fun hwaiting => hall ?_⟩
    cases closes with
    | none => rfl
    | some waiting =>
      exact absurd h.closing.of_waiting (hwaiting waiting (h.waiting_eq ▸ List.mem_cons_self))
  · rw [h.later n hn, if_pos (by omega)]
  · rw [h.requests_eq, requests_append, h.opening.requests_eq]
    by_cases hcalls : 0 < calls
    · rw [if_pos hcalls]
    · rw [if_neg hcalls, h.ahead_iff.2 (by omega)]
      rfl

end Connection

end Outpost
