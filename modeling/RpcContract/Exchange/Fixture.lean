import RpcContract.Error
import RpcContract.Exchange.Message
import RpcContract.Text.Blank

/-!
Fixtures record exchanges, one message to a line: a request after `>> `, its response after `<< `
on the next line that counts. Blank lines and lines that start with `//` do not count.
-/

namespace RpcContract

inductive Response where
  | result (value : Json)
  | error (value : Json)
deriving DecidableEq, Repr

/-- A request with the answer it got. -/
structure Exchange where
  method : String
  fixture : String
  params : List Json
  response : Response
deriving DecidableEq, Repr

def Exchange.result? (x : Exchange) : Option Json :=
  match x.response with
  | .result value => some value
  | .error _ => none

namespace Fixture

inductive Line where
  | ignored
  | request (body : String)
  | response (body : String)
  | other (text : String)
deriving DecidableEq, Repr

def Line.ofChars (chars : List Char) : Line :=
  match Text.trim chars with
  | [] => .ignored
  | '/' :: '/' :: _ => .ignored
  | '>' :: '>' :: ' ' :: body => .request (String.ofList body)
  | '<' :: '<' :: ' ' :: body => .response (String.ofList body)
  | text => .other (String.ofList text)

/-- The lines of a text with their numbers, from 1. -/
def numbered (content : String) : List (Nat × Line) :=
  (Text.lines content.toList).mapIdx fun i chars => (i + 1, Line.ofChars chars)

def params (m : Message) : Except FixtureFault (List Json) :=
  match m.params with
  | none => .ok []
  | some (.arr values) => .ok values
  | some value => .error (.notPositional value)

def answer (m : Message) : Except FixtureFault Response :=
  match m.result, m.error with
  | some value, _ => .ok (.result value)
  | none, some value => .ok (.error value)
  | none, none => .error .noAnswer

def pair (fixture : String) (request response : Message) : Except FixtureFault Exchange := do
  match request.method with
  | none => .error .noMethod
  | some method =>
    let params ← params request
    let response ← answer response
    return ⟨method, fixture, params, response⟩

/-- The request without a response yet, with its line. -/
abbrev Pending := Option (Nat × Message)

/-- Reads one line; the exchange that it completes comes back with the next pending request. -/
def step (fixture : String) (pending : Pending) (line : Line) (number : Nat) :
    Except FixtureFault (Pending × List Exchange) :=
  match line with
  | .ignored => .ok (pending, [])
  | .other text => .error (.invalidLine text)
  | .request body =>
    match pending with
    | some (opened, _) => .error (.openRequest opened)
    | none =>
      match Message.read body with
      | .error e => .error (.malformedRequest e)
      | .ok request => .ok (some (number, request), [])
  | .response body =>
    match pending with
    | none => .error .noRequest
    | some (_, request) =>
      match Message.read body with
      | .error e => .error (.malformedResponse e)
      | .ok response => (pair fixture request response).map fun x => (none, [x])

def ofLines (fixture : String) (pending : Pending) :
    List (Nat × Line) → Except Error (List Exchange)
  | [] =>
    match pending with
    | some (opened, _) => .error (.invalidFixture fixture opened .unhandledRequest)
    | none => .ok []
  | (number, line) :: lines =>
    match step fixture pending line number with
    | .error fault => .error (.invalidFixture fixture number fault)
    | .ok (pending, done) => (ofLines fixture pending lines).map (done ++ ·)

/-- The exchanges recorded in a text. -/
def parse (fixture content : String) : Except Error (List Exchange) :=
  ofLines fixture none (numbered content)

end Fixture

end RpcContract
