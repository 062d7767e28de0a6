import SourceMarkers.Catalog.Document
import SourceMarkers.Session.Command
import SourceMarkers.Session.Event

/-!
# A session

A session owns the catalog, answers requests one by one, and announces every
change to the client. Carrying out a command gives a new session, a result,
the events and the log entries; answering a line gives a response instead of
the result.

Every command but the one that asks for the view announces exactly one event,
after the change, whether something changed or not. When no client is
attached, the event is dropped and only the log says so.

## Main definitions

* `Session`: The catalog, how paths are written, and whether a client listens.
* `Outcome`, `Session.perform`: Carrying out a command.
* `Session.call`: Carrying out a method with parameters.
* `Reply`, `Session.answer`, `Session.answerOctets`: Answering a line.
-/

namespace SourceMarkers

open Json (Value)

/-- The catalog of one session, and how it meets the client. -/
structure Session where
  shorthand : Shorthand
  catalog : Catalog
  /-- A client listens to events. -/
  attached : Bool

/-- What comes of a command. -/
structure Outcome where
  session : Session
  result : Except RequestFault Value
  events : List Event
  log : List Entry

/-- The outcome with entries put before its own. -/
def Outcome.after (o : Outcome) (log : List Entry) : Outcome := { o with log := log ++ o.log }

/-- What comes of a line. -/
structure Reply where
  session : Session
  response : Response
  events : List Event
  log : List Entry

namespace Session

/-- A session with an empty catalog and a client. -/
def new (s : Shorthand) : Session := ⟨s, .empty, true⟩

/-- The view of the catalog. -/
def view (s : Session) : Value := s.catalog.view s.shorthand

/-- The session with another catalog. -/
def withCatalog (s : Session) (c : Catalog) : Session := { s with catalog := c }

/-- The outcome of a change to the catalog: the view is announced. -/
def announce (s : Session) (select : AutoSelect) : Outcome :=
  if s.attached then ⟨s, .ok .null, [⟨s.view, select⟩], []⟩
  else
    ⟨s, .ok .null, [],
      [⟨.debug, s!"Dropping '{Event.name}' event: no client attached"⟩]⟩

/-- Shows a set and announces it. -/
def present (s : Session) (set : MarkerSet) (select : AutoSelect) : Outcome :=
  Outcome.after ((s.withCatalog (s.catalog.put set)).announce select)
    [⟨.debug, s!"Showing {set.markers.length} markers for set '{set.name}'"⟩]

/-- Carries out a command. -/
def perform (s : Session) : Command → Outcome
  | .closeTab => (s.withCatalog s.catalog.clear).announce .none
  | .activate name =>
    let switched := s.catalog.activate name
    Outcome.after ((s.withCatalog switched.value).announce .none) switched.log
  | .clearActive => (s.withCatalog s.catalog.clearActive).announce .none
  | .present set select => s.present set select
  | .getView => ⟨s, .ok s.view, [], []⟩

/-- Carries out a method with parameters, or refuses it. -/
def call (s : Session) (method : String) (params : Value) : Outcome :=
  let command := Command.ofRequest s.shorthand method params
  match command.value with
  | .error f => ⟨s, .error f, [], command.log⟩
  | .ok c => Outcome.after (s.perform c) command.log

/-- Refuses a line, with an entry that says why. -/
def refuse (s : Session) (id : Value) (f : RequestFault) (entry : String) : Reply :=
  ⟨s, ⟨id, .error f⟩, [], [⟨.warn, entry⟩]⟩

/-- Carries out a request. -/
def serveRequest (s : Session) (r : Request) : Reply :=
  let o := s.call r.method r.params
  let failure :=
    match o.result with
    | .ok _ => []
    | .error f => [⟨.warn, s!"'{r.method}' failed: {f.message}"⟩]
  ⟨o.session, ⟨r.id, o.result⟩, o.events,
    ⟨.debug, s!"Handling '{r.method}'"⟩ :: o.log ++ failure⟩

/-- Answers a line of text. -/
def answer (s : Session) (line : List Char) : Reply :=
  match Json.parseChars line with
  | .error f =>
    s.refuse .null (.notJson f) s!"Rejecting unparseable request: {f.message}"
  | .ok v =>
    match Request.ofJson v with
    | .error m =>
      s.refuse ((v.member? "id").getD .null) (.notARequest m)
        s!"Rejecting invalid request: {m.message}"
    | .ok r => s.serveRequest r

/-- Answers a line of octets. -/
def answerOctets (s : Session) (line : List UInt8) : Reply :=
  match Utf8.decode line with
  | .error f =>
    s.refuse .null (.notText f) s!"Rejecting request that is not UTF-8: {f.message}"
  | .ok cs => s.answer cs

end Session

end SourceMarkers
