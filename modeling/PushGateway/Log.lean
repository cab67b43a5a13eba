import PushGateway.Text.Fields
/-!
Log records: what the gateway reports about itself while it works.
-/

namespace PushGateway

namespace Log

inductive Level where
  | error
  | warn
  | info
  | debug
  | trace
  deriving DecidableEq, Repr

def Level.name : Level → String
  | .error => "ERROR"
  | .warn => "WARN"
  | .info => "INFO"
  | .debug => "DEBUG"
  | .trace => "TRACE"

inductive Component where
  | program
  | server
  | connection
  | handler
  | keys
  | devices
  | state
  | fixtures
  | token
  deriving DecidableEq, Repr

def Component.path : Component → String
  | .program => "mock_push_gateway"
  | .server => "mock_push_gateway::server"
  | .connection => "mock_push_gateway::negotiator"
  | .handler => "mock_push_gateway::handler"
  | .keys => "mock_push_gateway::keys"
  | .devices => "mock_push_gateway::devices"
  | .state => "mock_push_gateway::state"
  | .fixtures => "mock_push_gateway::config"
  | .token => "mock_push_gateway::token"

structure Record where
  level : Level
  component : Component
  text : String
  deriving DecidableEq, Repr

/-- Level and text alone. -/
def Record.render (r : Record) : String := s!"{r.level.name} {r.text}"

def error (component : Component) (text : String) : Record := ⟨.error, component, text⟩
def warn (component : Component) (text : String) : Record := ⟨.warn, component, text⟩
def info (component : Component) (text : String) : Record := ⟨.info, component, text⟩
def debug (component : Component) (text : String) : Record := ⟨.debug, component, text⟩
def trace (component : Component) (text : String) : Record := ⟨.trace, component, text⟩

def Level.isWritten : Level → Bool
  | .error | .warn | .info => true
  | .debug | .trace => false

/-- Fills a name up to five letters. -/
def pad (name : String) : String := name ++ String.ofList (List.replicate (5 - name.length) ' ')

/-- The lines that the program writes for a record; all but the first are indented. -/
def Record.lines (r : Record) : List String :=
  match (Text.fields '\n' r.text.toList).map String.ofList with
  | [] => []
  | first :: others =>
    s!"[{pad r.level.name} {r.component.path}] {first}" :: others.map ("    " ++ ·)

def lines (rs : List Record) : List String := (rs.filter (·.level.isWritten)).flatMap (·.lines)

end Log
end PushGateway
