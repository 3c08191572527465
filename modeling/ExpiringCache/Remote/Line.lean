import ExpiringCache.Remote.Reply

/-!
# Lines to a server

A line is one side of a conversation with a server. It carries the replies that
the server is going to give, and the commands sent so far with the replies they
got. A server that has no reply left acknowledges a `PING` and refuses every
other command.
-/

namespace ExpiringCache

/-- A command: its name and its arguments. -/
abbrev ServerCommand := List Bytes

namespace ServerCommand

/-- A command of text arguments. -/
def ofTexts (words : List String) : ServerCommand := words.map Text.encode

/-- A command about one key. -/
def onKey (name : String) (key : Bytes) : ServerCommand := [Text.encode name, key]

def ping : ServerCommand := ofTexts ["PING"]

end ServerCommand

/-- A command and the reply that it got. -/
structure Exchange where
  command : ServerCommand
  reply : Reply
  deriving Repr

/-- One side of a conversation. -/
structure Line where
  /-- The replies still to come. -/
  replies : List Reply
  /-- What was sent and answered, in order. -/
  log : List Exchange := []
  deriving Repr

namespace Line

/-- The commands sent, in order. -/
def sent (l : Line) : List ServerCommand := l.log.map (·.command)

/-- The reply of a server with none left. -/
def lastReply (command : ServerCommand) : Reply :=
  if command = ServerCommand.ping then .simple "PONG" else .error "ERR unscripted"

/-- Sends a command and takes the next reply. -/
def ask (l : Line) (command : ServerCommand) : Reply × Line :=
  match l.replies with
  | [] => (lastReply command, { l with log := l.log ++ [⟨command, lastReply command⟩] })
  | reply :: rest => (reply, ⟨rest, l.log ++ [⟨command, reply⟩]⟩)

/-- Sends a command of the handshake, which every server acknowledges. -/
def handshake (l : Line) (command : ServerCommand) : Line :=
  { l with log := l.log ++ [⟨command, .simple "OK"⟩] }

/-- Sends a command and reads the reply. -/
def query {α : Type} (l : Line) (command : ServerCommand) (read? : Reply → Option α) :
    Except Fault α × Line :=
  let (reply, l) := l.ask command
  (reply.interpret read?, l)

end Line

end ExpiringCache
