/-!
# The engine operations

The table of generic operations: their names, parameters, and whether a call waits for the boundary
of a render cycle.

* `Operation` — one constructor per operation, and `Operation.all` in table order;
* `name`, `parameters`, `arity`, `dispatch` — the columns of the table;
* `ofName?` — look-up by name;
* `listing` — the table as lines of text.

Main statements: `ofName?_eq_some_iff` (look-up finds exactly the operation of that name),
`nodup_names`.
-/

namespace SynthControl

/-- How a call is dispatched while a performance is live. -/
inductive Dispatch where
  /-- Waits for the boundary of a cycle, and is dropped after the performance ended. -/
  | guarded
  | direct
  deriving DecidableEq, Repr

/-- The name of a dispatch as a programmer writes it. -/
def Dispatch.label : Dispatch → String
  | guarded => "Guarded"
  | direct => "Direct"

/-- The name of a dispatch in the operation listing. -/
def Dispatch.word : Dispatch → String
  | guarded => "guarded"
  | direct => "direct"

/-- A generic operation of an engine. -/
inductive Operation where
  | compileCsd | compileOrc | evalCode | readScore | inputMessage | setOption
  | getSr | getKsmps | getNchnls | getNchnlsInput | getFullScale
  | getControlChannel | setControlChannel | getStringChannel | setStringChannel
  | getScoreTime | isScorePending | setScorePending | rewindScore
  | getScoreOffset | setScoreOffset
  | tableLength | tableGet | tableSet
  | getVersion | getApiVersion
  | writeFile | readFile | listFiles | listFileSizes | removeFiles
  deriving DecidableEq, Repr

namespace Operation

/-- Every operation, in table order. -/
def all : List Operation :=
  [compileCsd, compileOrc, evalCode, readScore, inputMessage, setOption,
    getSr, getKsmps, getNchnls, getNchnlsInput, getFullScale,
    getControlChannel, setControlChannel, getStringChannel, setStringChannel,
    getScoreTime, isScorePending, setScorePending, rewindScore,
    getScoreOffset, setScoreOffset, tableLength, tableGet, tableSet,
    getVersion, getApiVersion, writeFile, readFile, listFiles, listFileSizes, removeFiles]

/-- The name of an operation. -/
def name : Operation → String
  | compileCsd => "compileCsd"
  | compileOrc => "compileOrc"
  | evalCode => "evalCode"
  | readScore => "readScore"
  | inputMessage => "inputMessage"
  | setOption => "setOption"
  | getSr => "getSr"
  | getKsmps => "getKsmps"
  | getNchnls => "getNchnls"
  | getNchnlsInput => "getNchnlsInput"
  | getFullScale => "get0dBFS"
  | getControlChannel => "getControlChannel"
  | setControlChannel => "setControlChannel"
  | getStringChannel => "getStringChannel"
  | setStringChannel => "setStringChannel"
  | getScoreTime => "getScoreTime"
  | isScorePending => "isScorePending"
  | setScorePending => "setScorePending"
  | rewindScore => "rewindScore"
  | getScoreOffset => "getScoreOffsetSeconds"
  | setScoreOffset => "setScoreOffsetSeconds"
  | tableLength => "tableLength"
  | tableGet => "tableGet"
  | tableSet => "tableSet"
  | getVersion => "getVersion"
  | getApiVersion => "getAPIVersion"
  | writeFile => "writeToFs"
  | readFile => "readFromFs"
  | listFiles => "lsFs"
  | listFileSizes => "llFs"
  | removeFiles => "rmrfFs"

/-- The names of the parameters of an operation. -/
def parameters : Operation → List String
  | compileCsd => ["csd"]
  | compileOrc => ["orc"]
  | evalCode => ["code"]
  | readScore => ["score"]
  | inputMessage => ["message"]
  | setOption => ["option"]
  | getControlChannel | getStringChannel => ["name"]
  | setControlChannel | setStringChannel => ["name", "value"]
  | setScorePending => ["pending"]
  | setScoreOffset => ["offset"]
  | tableLength => ["table"]
  | tableGet => ["table", "index"]
  | tableSet => ["table", "index", "value"]
  | writeFile => ["path", "data"]
  | readFile | removeFiles => ["path"]
  | _ => []

/-- The number of arguments an operation takes. -/
def arity (op : Operation) : Nat := op.parameters.length

/-- Calls on the file system are dispatched at once, all others wait. -/
def dispatch : Operation → Dispatch
  | writeFile | readFile | listFiles | listFileSizes | removeFiles => .direct
  | _ => .guarded

/-- The operation with a name. -/
def ofName? (s : String) : Option Operation := all.find? fun op => op.name == s

theorem mem_all (op : Operation) : op ∈ all := by cases op <;> decide

/-- No two operations share a name. -/
theorem nodup_names : (all.map name).Nodup := by decide

/-- Look-up finds exactly the operation of that name. -/
theorem ofName?_eq_some_iff {s : String} {op : Operation} :
    ofName? s = some op ↔ op.name = s := by
  constructor
  · intro h
    simpa using List.find?_some h
  · rintro rfl
    cases op <;> decide

/-- A text filled up with blanks on the right. -/
def padRight (width : Nat) (s : String) : String :=
  s ++ String.ofList (List.replicate (width - s.length) ' ')

/-- One line of the listing: name, dispatch, parameters. -/
def row (name dispatch parameters : String) : String :=
  padRight 24 name ++ " " ++ padRight 8 dispatch ++ " " ++ parameters

/-- The operation table as lines of text, with a heading. -/
def listing : List String :=
  row "OPERATION" "DISPATCH" "PARAMETERS"
    :: all.map fun op => row op.name op.dispatch.word (", ".intercalate op.parameters)

end Operation
end SynthControl
