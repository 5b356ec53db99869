import PushGateway.Delivery.Client

namespace PushGateway

/-- Something that an application asks of a client. With a send go the things that it asks from
inside, while it hears of the outcome. -/
inductive Call
  | send (n : Notification) (inside : List Call)
  | testConnection
  | close
  | state
  | opened
  deriving Inhabited

/-- What comes of a call. -/
inductive Answer
  | sent (result : Except NetworkError Unit) (inside : List Answer)
  | tested (result : Except NetworkError Unit)
  | closed
  | state (state : ConnectionState)
  | opened (count : Nat)
  deriving Inhabited

namespace Client

variable {σ π : Type} [Policy π] (net : Network σ)

mutual

def perform (c : Client π) (w : World σ) : Call → Answer × Client π × World σ
  | .send n inside =>
    let (result, after, w) := c.send net .client n w
    let (answers, after, w) := if c.isHeard n then performAll after w inside else ([], after, w)
    (.sent result answers, after, w)
  | .testConnection =>
    let (result, w) := c.testConnection net w
    (.tested result, c, w)
  | .close =>
    let (c, w) := c.close net .client w
    (.closed, c, w)
  | .state =>
    let (state, w) := c.state net .client w
    (.state state, c, w)
  | .opened =>
    let (count, w) := c.opened .client w
    (.opened count, c, w)

/-- Performs calls one after the other. -/
def performAll (c : Client π) (w : World σ) : List Call → List Answer × Client π × World σ
  | [] => ([], c, w)
  | call :: calls =>
    let (answer, c, w) := perform c w call
    let (answers, c, w) := performAll c w calls
    (answer :: answers, c, w)

end

/-- Sends a notification; the listener, if there is one, asks `inside` from within. -/
def sendHearing (n : Notification) (inside : List Call) (c : Client π) (w : World σ) :
    Except NetworkError Unit × List Answer × Client π × World σ :=
  let (result, after, w) := c.send net .client n w
  let (answers, after, w) := if c.isHeard n then performAll net after w inside else ([], after, w)
  (result, answers, after, w)

theorem perform_send (c : Client π) (w : World σ) (n : Notification) (inside : List Call) :
    c.perform net w (.send n inside) =
      let (result, answers, after, w) := c.sendHearing net n inside w
      (.sent result answers, after, w) := by
  rw [perform]
  rfl

end Client
end PushGateway
