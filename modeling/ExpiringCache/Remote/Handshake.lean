import ExpiringCache.Remote.Line
import ExpiringCache.Remote.Node

/-!
# Connecting to a server

What is checked and sent before a remote cache is usable. A single server is
greeted with `AUTH` if there is a password, `SELECT` if the database is not the
first one, and `PING`; a cluster with `AUTH` and `PING`. The third version of the
protocol starts with `HELLO` in place of `AUTH`. Nothing is sent before every node
of the address has been read.
-/

namespace ExpiringCache

/-- How a remote cache reaches its entries. -/
inductive Mode
  | single
  | cluster
  deriving DecidableEq, Repr

def Mode.name : Mode → String
  | .single => "single"
  | .cluster => "cluster"

/-- A server that listens on the network. -/
structure Server where
  host : String
  port : Nat
  /-- Whether it is part of a cluster. -/
  clustered : Bool := false
  deriving DecidableEq, Repr

/-- Whether a place is that of the server. -/
def Server.listensAt (server : Option Server) (place : Place) : Bool :=
  match server, place with
  | some s, .network host port => s.host == host && s.port == port
  | _, _ => false

namespace RemoteFault

/-- The address, or what it names, cannot be used. -/
def badAddress : RemoteFault := ⟨"InvalidClientConfig", none⟩

/-- No usable server answers. -/
def unreachable : RemoteFault := ⟨"IoError", none⟩

end RemoteFault

namespace Fault

def emptyAddress : Fault := .config "remote address is empty"

def notACluster (nodes : Nat) : Fault :=
  .config s!"{nodes} nodes configured but cluster mode is off"

end Fault

namespace Handshake

/-- The command that presents credentials. A user name alone is not presented. -/
def auth (username password : Option String) : List ServerCommand :=
  match password with
  | none => []
  | some secret => [ServerCommand.ofTexts (["AUTH"] ++ username.toList ++ [secret])]

/-- The command that selects a database. The first one needs none. -/
def select (database : Int64) : List ServerCommand :=
  if database = 0 then [] else [ServerCommand.ofTexts ["SELECT", toString database.toInt]]

/-- Sends commands that every server acknowledges. -/
def greet (line : Line) (commands : List ServerCommand) : Line := commands.foldl Line.handshake line

/-- The command that asks for the third version of the protocol. It presents the
credentials too; a password without a user name is that of the default user. -/
def hello (username password : Option String) : ServerCommand :=
  ServerCommand.ofTexts (["HELLO", "3"] ++
    match password with
    | none => []
    | some secret => ["AUTH", username.getD "default", secret])

/-- Presents the credentials of a node in the version of the protocol that it
asks for. Only the third version is a request that the server may refuse. -/
def introduce (node : Node) (line : Line) : Except Fault Unit × Line :=
  match node.protocol with
  | .two => (.ok (), greet line (auth node.username node.password))
  | .three => line.query (hello node.username node.password) Reply.anything?

/-- Asks whether the server is there. -/
def ping (line : Line) : Except Fault Unit × Line := line.query .ping Reply.anything?

/-- The mode in which one node is used, if the server there answers. -/
def single (s : RemoteSettings) (server : Option Server) (node : Node) (line : Line) :
    Except Fault Mode × Line :=
  if Server.listensAt server node.place then
    match introduce node line with
    | (.error cause, line) => (.error cause, line)
    | (.ok _, line) =>
        let (answer, line) := ping (greet line (select s.database))
        (answer.map fun _ => .single, line)
  else (.error (.remote .unreachable), line)

/-- Whether nodes can be the seeds of one cluster. They have to be on the
network and to speak one version of the protocol; where the settings leave the
user name or the password open, the other nodes have to agree with the first. -/
def agree (s : RemoteSettings) (first : Node) (nodes : List Node) : Bool :=
  nodes.all fun node =>
    (match node.place with
      | .network _ _ => true
      | .socket _ => false) &&
    node.protocol == first.protocol &&
    (s.username.isSome || first.username.isNone || node.username == first.username) &&
    (s.password.isSome || first.password.isNone || node.password == first.password)

/-- The mode in which a cluster is used, if one answers at the seed nodes. -/
def cluster (s : RemoteSettings) (server : Option Server) (nodes : List Node) (line : Line) :
    Except Fault Mode × Line :=
  match nodes with
  | [] => (.error .emptyAddress, line)
  | first :: _ =>
      if !agree s first nodes then (.error (.remote .badAddress), line)
      else if nodes.any (Server.listensAt server ·.place) && server.any (·.clustered) then
        match introduce first line with
        | (.error cause, line) => (.error cause, line)
        | (.ok _, line) =>
            let (answer, line) := ping line
            (answer.map fun _ => .cluster, line)
      else (.error (.remote .unreachable), line)

/-- Connects as the settings say. -/
def run (s : RemoteSettings) (server : Option Server) (line : Line) : Except Fault Mode × Line :=
  match s.cluster, s.nodes with
  | _, [] => (.error .emptyAddress, line)
  | false, [text] =>
      match Node.configured? s text with
      | none => (.error (.remote .badAddress), line)
      | some node => single s server node line
  | false, nodes => (.error (.notACluster nodes.length), line)
  | true, texts =>
      match texts.mapM (Node.configured? s) with
      | none => (.error (.remote .badAddress), line)
      | some nodes => cluster s server nodes line

end Handshake

end ExpiringCache
