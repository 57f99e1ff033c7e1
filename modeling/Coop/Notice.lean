import Coop.Error
import Coop.Interrupt.Line
import Coop.Thread.Basic

/-!
# Notices

The runtime reports what it does.  Each report is a value with a level and a
wording; a written notice is its level followed by its text.
-/

namespace Coop

open Thread (Id)

inductive Level where
  | error
  | warn
  | debug
  | trace
  deriving DecidableEq, Repr

namespace Level

def label : Level → String
  | error => "ERROR"
  | warn => "WARN"
  | debug => "DEBUG"
  | trace => "TRACE"

end Level

inductive Notice where
  /-- The caller became the main thread. -/
  | adopted (id : Id)
  | initialized
  | spawnFailed (cause : Shortage)
  | spawned (id : Id) (stackSize : Nat) (detached : Bool)
  | waits (id : Id) (line : Line)
  | waitRefused (line : Line)
  | exited (id : Id) (code : Int32)
  | exitRefused
  | wakesJoiner (id joiner : Id)
  | joins (id target : Id)
  | joinRefused
  | switched (previous next : Id)
  | reclaimed (id : Id)
  | releasesRetiredStack
  | woke (line : Line) (count : Nat)
  /-- The canary of a thread that gives up the processor is gone. -/
  | overflow (id : Id)
  | idleCannotYield (cause : Error)
  /-- A thread began to run and had nothing to run. -/
  | noBody
  deriving DecidableEq, Repr

namespace Notice

def level : Notice → Level
  | adopted _ | initialized | spawned .. | exited .. | reclaimed _ => .debug
  | waits .. | wakesJoiner .. | joins .. | switched .. | releasesRetiredStack | woke .. => .trace
  | spawnFailed _ => .warn
  | waitRefused _ | exitRefused | joinRefused | overflow _ | idleCannotYield _ | noBody => .error

def text : Notice → String
  | adopted id => s!"cothread: thread {id} adopted as main"
  | initialized => "cothread: runtime initialized"
  | spawnFailed cause => "cothread: spawn failed: " ++ cause.message
  | spawned id stackSize detached =>
      s!"cothread: spawned thread {id} ({stackSize} byte stack" ++
        (if detached then ", detached)" else ")")
  | waits id line => s!"cothread: thread {id} waits on " ++ line.label
  | waitRefused line => "cothread: wait on " ++ line.label ++ " with no runnable thread"
  | exited id code => s!"cothread: thread {id} exited with " ++ toString code.toInt
  | exitRefused => "cothread: exit with no runnable thread"
  | wakesJoiner id joiner => s!"cothread: thread {id} wakes joiner {joiner}"
  | joins id target => s!"cothread: thread {id} joins {target}"
  | joinRefused => "cothread: join with no runnable thread"
  | switched previous next => s!"cothread: switch {previous} -> {next}"
  | reclaimed id => s!"cothread: thread {id} reclaimed"
  | releasesRetiredStack => "cothread: releasing retired stack"
  | woke line count => "cothread: " ++ line.label ++ s!" woke {count} thread(s)"
  | overflow id => s!"cothread: stack overflow detected in thread {id}"
  | idleCannotYield cause => "cothread: idle thread cannot yield: " ++ cause.message
  | noBody => "cothread: thread started without a body"

def render (n : Notice) : String :=
  n.level.label ++ " " ++ n.text

end Notice

end Coop
