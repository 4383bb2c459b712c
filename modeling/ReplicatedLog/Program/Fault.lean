import ReplicatedLog.Fault.Message

namespace ReplicatedLog

/-- A reason for which the program does not do what it was asked for. -/
inductive ProgramFault
  /-- The settings file is not valid. -/
  | settingsFile
  /-- The environment gives an address to listen on that is none. -/
  | bindAddress (text : String)
  | syncSection (flaw : SettingFlaw)
  | writerSection (flaw : SettingFlaw)
  | remoteMissing
  | topicsDiffer (count : Nat)
  | log (fault : Fault)
  /-- A fault of one side of a comparison. -/
  | side (topic side : String) (fault : Fault)
  deriving DecidableEq, Repr

/-- The I/O failure that a fault reports, if it is one. -/
def Fault.ioCause? : Fault → Option IoFault
  | .io fault | .wire (.io fault) => some fault
  | _ => none

/-- A fault with what is behind it. -/
def Fault.chain (fault : Fault) : List String :=
  fault.namedMessage :: (fault.ioCause?.map IoFault.namedMessage).toList

namespace ProgramFault

/-- What went wrong, and then what caused it, one behind the other. -/
def chain : ProgramFault → List String
  | .settingsFile => ["failed to parse logsync.toml"]
  | .bindAddress text =>
    [s!"invalid LOGSYNC_BIND_ADDR {Text.quoted text}", "invalid socket address syntax"]
  | .syncSection flaw => ["invalid [sync] section", flaw.message]
  | .writerSection flaw => ["invalid [writer] section", flaw.message]
  | .remoteMissing =>
    ["no remote address: set [sync] remote_addr, LOGSYNC_REMOTE_ADDR or --remote"]
  | .topicsDiffer count => [s!"{count} topics differ"]
  | .log fault => fault.chain
  | .side topic name fault => s!"{topic}: {name}" :: fault.chain

/-- A fault on one line. -/
def message (fault : ProgramFault) : String :=
  ": ".intercalate fault.chain

/-- Causes with their numbers, counted from `number`. -/
def numbered : (number : Nat) → List String → List String
  | _, [] => []
  | number, cause :: rest =>
    let margin := String.ofList (List.replicate (5 - (toString number).length) ' ')
    s!"{margin}{number}: {cause}" :: numbered (number + 1) rest

/-- A fault as the program reports it: its causes follow below, with numbers if there are
    several. -/
def report (fault : ProgramFault) : List String :=
  match fault.chain with
  | [] => []
  | [heading] => [s!"Error: {heading}"]
  | [heading, cause] => [s!"Error: {heading}", "", "Caused by:", s!"    {cause}"]
  | heading :: causes => [s!"Error: {heading}", "", "Caused by:"] ++ numbered 0 causes

end ProgramFault

end ReplicatedLog
