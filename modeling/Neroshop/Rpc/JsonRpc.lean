import Neroshop.Database.Sqlite3
import Neroshop.Fetch

/-!
# SQL statements as JSON-RPC requests

`json_translate` writes a statement and its arguments into a request, the
arguments under their numbers beside a count, and `json_process` reads them
back for the database.  The build with Qt reads as many arguments as the count
says.  The build without it reads as many as there are members named `count`.
-/

namespace Neroshop.Json

def isArray : Json → Bool
  | .array _ => true
  | _ => false

/-- `count`: how many members have the name. -/
def count (json : Json) (name : String) : Nat :=
  if json.contains name then 1 else 0

/-- `toInt`: zero for everything but a whole number that is an `int`. -/
def toInt : Json → Int
  | .integer value => if -2 ^ 31 ≤ value ∧ value < 2 ^ 31 then value else 0
  | .unsigned value => if value < 2 ^ 31 then value else 0
  | .float value =>
      if value.den = 1 ∧ -2 ^ 31 ≤ value.num ∧ value.num < 2 ^ 31
      then value.num else 0
  | _ => 0

end Neroshop.Json

namespace Neroshop.Rpc.JsonRpc

open Neroshop.Foundation Neroshop.Database

/-- `QJsonParseError::ParseError`. -/
inductive ParseError where
  | unterminatedObject
  | missingNameSeparator
  | unterminatedArray
  | missingValueSeparator
  | illegalValue
  | terminationByNumber
  | illegalNumber
  | illegalEscapeSequence
  | illegalUTF8String
  | unterminatedString
  | missingObject
  | deepNesting
  | documentTooLarge
  | garbageAtEnd
  deriving DecidableEq

def ParseError.data : ParseError → String
  | .unterminatedObject => "Unterminated object"
  | .missingNameSeparator => "Missing name separator"
  | .unterminatedArray => "Unterminated array"
  | .missingValueSeparator => "Missing value separator"
  | .illegalValue => "Illegal value"
  | .terminationByNumber => "Termination by number"
  | .illegalNumber => "Illegal number"
  | .illegalEscapeSequence => "Illegal escape sequence"
  | .illegalUTF8String => "Illegal utf8 string"
  | .unterminatedString => "Unterminated string"
  | .missingObject => "Missing object"
  | .deepNesting => "Deep nesting"
  | .documentTooLarge => "Document too large"
  | .garbageAtEnd => "Garbage at end"

/-- The two builds, with the JSON library of each. -/
inductive Build where
  | qt (fromJson : String → Except ParseError Json) (toJson : Json → String)
  | nlohmann (parse : String → Except String Json) (dump : Json → String)

namespace Build

/-- A text that is not JSON yields the reason that the reply gives. -/
def parse : Build → String → Except String Json
  | .qt fromJson _, text =>
      (fromJson text).mapError fun error => "Reason: " ++ error.data
  | .nlohmann parse _, text => parse text

def dump : Build → Json → String
  | .qt _ toJson => toJson
  | .nlohmann _ dump => dump

end Build

def queryMethods : List String :=
  ["SELECT", "UPDATE", "DELETE", "INSERT", "CREATE", "ALTER", "DROP"]

def jsonGetQueryMethod (sql : String) : String :=
  let firstWord := String.ofList
    ((sql.toList.takeWhile fun char => char ≠ ' ').map Char.toUpper)
  if firstWord ∈ queryMethods then firstWord else ""

/-! ## Requests -/

/-- The arguments from number `index + 1` on. -/
def insertArgs (params : Json) (index : Nat) : List String → Json
  | [] => params
  | arg :: args =>
      insertArgs (params.setMember (toString (index + 1)) (.string arg))
        (index + 1) args

def sqlParams (sql : String) : Json := .object [("sql", .string sql)]

def requestObject (id : String) (params : Json) : Json :=
  .object [("jsonrpc", .string "2.0"), ("method", .string "query"),
    ("params", params), ("id", .string id)]

namespace Build

/-- The count is an `int` with Qt and a `size_t` without. -/
def argCount (build : Build) (args : List String) : Json :=
  match build with
  | .qt .. => .integer (Int.bmod args.length (2 ^ 32))
  | .nlohmann .. => .unsigned args.length

def argsParams (build : Build) (sql : String) (args : List String) : Json :=
  insertArgs ((sqlParams sql).setMember "count" (build.argCount args)) 0 args

def jsonTranslate (build : Build) (id sql : String) : String :=
  build.dump (requestObject id (sqlParams sql))

def jsonTranslateArgs (build : Build) (id sql : String)
    (args : List String) : Except Fault String := do
  assertThat (jsonGetQueryMethod sql ≠ "SELECT")
  if args.length < 2 ^ 31 then
    pure (build.dump (requestObject id (build.argsParams sql args)))
  else
    -- `index` is an `int` that goes out of its range, which is undefined.
    throw .outOfBounds

end Build

/-! ## Replies -/

inductive DatabaseCall where
  | execute (sql : String)
  | executeParams (sql : String) (args : List String)
  deriving DecidableEq

/-- What `json_process` uses of the database. -/
structure QueryDatabase (δ : Type) where
  execute : String → EStateM Fault δ Int
  executeParams : String → List String → EStateM Fault δ Int
  getSelect : EStateM Fault δ String
  getError : δ → Int × String

/-- The object `this` of a process, whose last error is the one to report. -/
def sqliteDatabase {σ Handle Statement : Type}
    (engine : Engine σ Handle Statement) (dump : Json → Except Fault String)
    (this : Nat) : QueryDatabase (Process σ Handle) where
  execute := engine.execute this
  executeParams := engine.executeParams this
  getSelect := Database.getSelect dump
  getError process := (process.objects this).getError

structure Session (δ : Type) where
  database : δ
  /-- The calls so far, which the program does not note. -/
  calls : List DatabaseCall

abbrev Processing (δ α : Type) := EStateM Fault (Session δ) α

variable {δ α : Type}

def onDatabase (action : EStateM Fault δ α) : Processing δ α := fun session =>
  match action.run session.database with
  | .ok value database => .ok value { session with database := database }
  | .error fault database => .error fault { session with database := database }

def noteCall (call : DatabaseCall) : Processing δ Unit :=
  modify fun session => { session with calls := session.calls ++ [call] }

/-- `isString` is asserted of the member. -/
def stringMember (json : Json) (name : String) : Except Fault String :=
  match json.find? name with
  | some (.string value) => .ok value
  | _ => .error .assertionFailed

/-- So many arguments from number `index + 1` on. -/
def readArgs (params : Json) (index : Nat) : Nat → Except Fault (List String)
  | 0 => .ok []
  | count + 1 => do
      let arg ← stringMember params (toString (index + 1))
      let args ← readArgs params (index + 1) count
      pure (arg :: args)

/-- The bound of the loop over the arguments. -/
def Build.argBound (build : Build) (params count : Json) : Int :=
  match build with
  | .qt .. => count.toInt
  | .nlohmann .. => params.count "count"

def Build.processArgs (build : Build) (params count : Json) :
    Except Fault (List String) := do
  let bound := build.argBound params count
  let args ← readArgs params 0 bound.toNat
  assertThat (args.length = bound)
  pure args

/-- The statement of the request and the code of its execution. -/
def Build.query (build : Build) (database : QueryDatabase δ)
    (request : Json) : Processing δ (String × Int) := do
  let params := (request.find? "params").getD .null
  MonadExcept.ofExcept (assertThat params.isObject)
  let sql ← MonadExcept.ofExcept (stringMember params "sql")
  match params.find? "count" with
  | none =>
      noteCall (.execute sql)
      let code ← onDatabase (database.execute sql)
      pure (sql, code)
  | some count =>
      MonadExcept.ofExcept (assertThat (jsonGetQueryMethod sql ≠ "SELECT"))
      let args ← MonadExcept.ofExcept (build.processArgs params count)
      noteCall (.executeParams sql args)
      let code ← onDatabase (database.executeParams sql args)
      pure (sql, code)

/-- The result of a statement that has succeeded; without one there is no
reply. -/
def Build.result (build : Build) (database : QueryDatabase δ)
    (sql : String) : Processing δ (Option Json) :=
  if jsonGetQueryMethod sql = "SELECT" then do
    let text ← onDatabase database.getSelect
    match build, build.parse text with
    | .qt .., .error _ => pure none
    | .qt .., .ok rows => do
        MonadExcept.ofExcept (assertThat rows.isArray)
        pure (some rows)
    | .nlohmann .., .error _ => throw .parseError
    | .nlohmann .., .ok rows => pure (some rows)
  else pure (some (.integer 0))

/-- Every code is named `SQLITE_ERROR`. -/
def errorObject (code : Int) (data : String) : Json :=
  .object [("code", .integer code), ("message", .string "SQLITE_ERROR"),
    ("data", .string data)]

def parseErrorObject (data : String) : Json :=
  .object [("jsonrpc", .string "2.0"),
    ("error", .object [("code", .integer (-32700)),
      ("message", .string "Parse error"), ("data", .string data)]),
    ("id", .null)]

/-- The id of the request, if it has one, is the last member. -/
def echoed (response : Json) : Option Json → Json
  | some id => response.setMember "id" id
  | none => response

def versionObject (version : String) : Json :=
  .object [("jsonrpc", .string version)]

/-- The reply to a request for a query. -/
def Build.reply (build : Build) (database : QueryDatabase δ)
    (request : Json) (version : String) : Processing δ String := do
  let (sql, code) ← build.query database request
  if code = 0 then
    match ← build.result database sql with
    | none => pure ""
    | some result =>
        pure (build.dump (echoed
          ((versionObject version).setMember "result" result)
          (request.find? "id")))
  else
    let session ← get
    pure (build.dump (echoed
      ((versionObject version).setMember "error"
        (errorObject code (database.getError session.database).2))
      (request.find? "id")))

/-- Only the build without Qt leaves a notification without a reply. -/
def Build.jsonProcess (build : Build) (database : QueryDatabase δ)
    (text : String) : Processing δ String :=
  match build.parse text with
  | .error data => pure (build.dump (parseErrorObject data))
  | .ok request => do
      let version ← MonadExcept.ofExcept (stringMember request "jsonrpc")
      MonadExcept.ofExcept (assertThat (version = "2.0"))
      let method ← MonadExcept.ofExcept (stringMember request "method")
      match build, request.find? "id" with
      | .nlohmann .., none => pure ""
      | _, id =>
          if method = "query" then build.reply database request version
          else pure (build.dump (echoed (versionObject version) id))

/-! ## The arguments of a request -/

theorem toString_injective {first second : Nat}
    (h : toString first = toString second) : first = second := by
  rw [Nat.toString_eq_repr, Nat.toString_eq_repr] at h
  have hdigits := congrArg (Nat.ofDigitChars 10 · 0) (congrArg String.toList h)
  simpa [Nat.toList_repr] using hdigits

/-- A number is not the name of one of the other members. -/
theorem toString_ne {name : String} (number : Nat)
    (h : ∃ char ∈ name.toList, char.isDigit = false) :
    name ≠ toString number := by
  rintro rfl
  obtain ⟨char, hchar, hdigit⟩ := h
  rw [Nat.toString_eq_repr, Nat.toList_repr] at hchar
  rw [Nat.isDigit_of_mem_toDigits (by omega) (by omega) hchar] at hdigit
  cases hdigit

theorem find?_insertArgs_of_ne {name : String} {index : Nat}
    (args : List String) (params : Json)
    (h : ∀ number, index < number → name ≠ toString number) :
    (insertArgs params index args).find? name = params.find? name := by
  induction args generalizing params index with
  | nil => rfl
  | cons arg args ih =>
      rw [insertArgs, ih _ fun number hnumber => h number (by omega),
        Json.find?_setMember, if_neg (h (index + 1) (by omega))]

theorem find?_insertArgs_named {name : String} (args : List String)
    (params : Json) (index : Nat)
    (h : ∃ char ∈ name.toList, char.isDigit = false) :
    (insertArgs params index args).find? name = params.find? name :=
  find?_insertArgs_of_ne args params fun number _ => toString_ne number h

theorem find?_insertArgs {args : List String} (params : Json) (index : Nat)
    {offset : Nat} (h : offset < args.length) :
    (insertArgs params index args).find? (toString (index + offset + 1)) =
      some (.string (args.get ⟨offset, h⟩)) := by
  induction args generalizing params index offset with
  | nil => exact absurd h (Nat.not_lt_zero offset)
  | cons arg args ih =>
      rw [insertArgs]
      cases offset with
      | zero =>
          have hlater : ∀ number, index + 1 < number →
              toString (index + 1) ≠ toString number := by
            intro number hnumber heq
            have := toString_injective heq
            omega
          rw [Nat.add_zero, find?_insertArgs_of_ne args _ hlater,
            Json.find?_setMember, if_pos rfl]
          rfl
      | succ offset =>
          have hlength : offset < args.length := by simpa using h
          have hfind := ih (params.setMember (toString (index + 1))
            (.string arg)) (index + 1) hlength
          rw [show index + (offset + 1) + 1 = index + 1 + offset + 1 by omega]
          exact hfind

theorem stringMember_of_find? {json : Json} {name value : String}
    (h : json.find? name = some (.string value)) :
    stringMember json name = .ok value := by
  rw [stringMember, h]

/-- The arguments that are read are the first ones of the request. -/
theorem readArgs_insertArgs (params : Json) (args : List String)
    (index : Nat) {count : Nat} (h : index + count ≤ args.length) :
    readArgs (insertArgs params 0 args) index count =
      .ok ((args.drop index).take count) := by
  induction count generalizing index with
  | zero => rw [List.take_zero]; rfl
  | succ count ih =>
      have hindex : index < args.length := by omega
      have hfind := find?_insertArgs params 0 hindex
      rw [Nat.zero_add] at hfind
      rw [readArgs, stringMember_of_find? hfind, ih (index + 1) (by omega),
        List.drop_eq_getElem_cons hindex, List.take_succ_cons]
      rfl

theorem isObject_insertArgs (params : Json) (index : Nat) (args : List String)
    (h : params.isObject = true) :
    (insertArgs params index args).isObject = true := by
  induction args generalizing params index with
  | nil => exact h
  | cons arg args ih =>
      refine ih _ _ ?_
      cases params <;> rfl

section Params

variable (build : Build) (sql : String) (args : List String)

theorem isObject_argsParams : (build.argsParams sql args).isObject = true :=
  isObject_insertArgs _ _ _ rfl

theorem find?_argsParams_sql :
    (build.argsParams sql args).find? "sql" = some (.string sql) := by
  rw [Build.argsParams, find?_insertArgs_named _ _ _ ⟨'s', by decide⟩]
  rfl

theorem find?_argsParams_count :
    (build.argsParams sql args).find? "count" = some (build.argCount args) := by
  rw [Build.argsParams, find?_insertArgs_named _ _ _ ⟨'c', by decide⟩]
  rfl

variable {args}

theorem toInt_argCount (h : args.length < 2 ^ 31) :
    (Json.integer (Int.bmod args.length (2 ^ 32))).toInt = args.length := by
  have hmod : Int.bmod args.length (2 ^ 32) = args.length := by
    rw [Int.bmod_eq_of_le] <;> omega
  rw [hmod, Json.toInt, if_pos (by omega)]

variable (args)

/-- The number of arguments that a build reads back. -/
def Build.Counts : Prop :=
  match build with
  | .qt .. => args.length < 2 ^ 31
  | .nlohmann .. => args.length = 1

variable {args}

theorem argBound_argsParams (h : build.Counts args) :
    build.argBound (build.argsParams sql args) (build.argCount args) =
      args.length := by
  cases build with
  | qt fromJson toJson =>
      simp only [Build.argBound, Build.argCount]
      exact toInt_argCount h
  | nlohmann parse dump =>
      have hcontains : ((Build.nlohmann parse dump).argsParams sql
          args).contains "count" = true :=
        Json.contains_eq_true.mpr ⟨_, find?_argsParams_count _ sql args⟩
      rw [Build.argBound, Json.count, if_pos hcontains, show args.length = 1 from h]

theorem processArgs_of_counts (h : build.Counts args) :
    build.processArgs (build.argsParams sql args) (build.argCount args) =
      .ok args := by
  have hread : readArgs (build.argsParams sql args) 0 args.length =
      .ok args := by
    have hfirst := readArgs_insertArgs
      ((sqlParams sql).setMember "count" (build.argCount args)) args 0
      (Nat.zero_add args.length).le
    rwa [List.drop_zero, List.take_length] at hfirst
  rw [Build.processArgs, argBound_argsParams build sql h, Int.toNat_natCast,
    hread]
  simp [assertThat, bind, Except.bind, pure, Except.pure]

/-- The arguments of a loop that has ended are as many as its bound. -/
theorem length_of_processArgs {params count : Json}
    (h : build.processArgs params count = .ok args) :
    (args.length : Int) = build.argBound params count := by
  rw [Build.processArgs, bind_eq_ok] at h
  obtain ⟨read, -, h⟩ := h
  rw [bind_eq_ok] at h
  obtain ⟨done, hassert, hargs⟩ := h
  cases hargs
  unfold assertThat at hassert
  split at hassert
  · exact of_decide_eq_true ‹_›
  · cases hassert

theorem counts_of_processArgs (hfew : args.length < 2 ^ 31)
    {params count : Json} (hcount : params.find? "count" = some count)
    (h : build.processArgs params count = .ok args) : build.Counts args := by
  cases build with
  | qt fromJson toJson => exact hfew
  | nlohmann parse dump =>
      have hlength := length_of_processArgs _ h
      rw [Build.argBound, Json.count,
        if_pos (Json.contains_eq_true.mpr ⟨count, hcount⟩)] at hlength
      exact Int.ofNat.inj hlength

end Params

/-! ## The reply to a request with arguments -/

section Reply

variable (build : Build) (database : QueryDatabase δ) {id sql : String}
  {args read : List String}

theorem ofExcept_ok_bind {β : Type} (value : β)
    (next : β → Processing δ α) :
    ((MonadExcept.ofExcept (.ok value : Except Fault β) : Processing δ β) >>=
      next) = next value := rfl

theorem query_request (hsql : jsonGetQueryMethod sql ≠ "SELECT") :
    build.query database (requestObject id (build.argsParams sql args)) = (do
      let read ← MonadExcept.ofExcept
        (build.processArgs (build.argsParams sql args) (build.argCount args))
      noteCall (.executeParams sql read)
      let code ← onDatabase (database.executeParams sql read)
      pure (sql, code)) := by
  have hparams : (requestObject id (build.argsParams sql args)).find? "params" =
      some (build.argsParams sql args) := rfl
  have hobject : assertThat (build.argsParams sql args).isObject = .ok () := by
    rw [isObject_argsParams]
    rfl
  have hmember := stringMember_of_find? (find?_argsParams_sql build sql args)
  have hselect : assertThat (jsonGetQueryMethod sql ≠ "SELECT") = .ok () :=
    if_pos (decide_eq_true hsql)
  rw [Build.query, hparams, Option.getD_some, hobject, hmember,
    find?_argsParams_count, ofExcept_ok_bind, ofExcept_ok_bind]
  dsimp only
  rw [hselect, ofExcept_ok_bind]

theorem onDatabase_run (action : EStateM Fault δ α) (session : Session δ) :
    (onDatabase action).run session =
      match action.run session.database with
      | .ok value state => .ok value { session with database := state }
      | .error fault state =>
          .error fault { session with database := state } := rfl

theorem onDatabase_run_eq_ok {action : EStateM Fault δ α}
    {session after : Session δ} {value : α} :
    (onDatabase action).run session = .ok value after ↔
      ∃ state, action.run session.database = .ok value state ∧
        after = { session with database := state } := by
  rw [onDatabase_run]
  cases action.run session.database with
  | ok found state => simp [and_assoc, eq_comm]
  | error fault state => simp

theorem noteCall_run (session : Session δ) (call : DatabaseCall) :
    (noteCall call : Processing δ Unit).run session =
      .ok () { session with calls := session.calls ++ [call] } := rfl

theorem query_run_eq_ok (hsql : jsonGetQueryMethod sql ≠ "SELECT")
    {session after : Session δ} {result : String × Int} :
    (build.query database
        (requestObject id (build.argsParams sql args))).run session =
          .ok result after ↔
      ∃ read code state,
        build.processArgs (build.argsParams sql args) (build.argCount args) =
          .ok read ∧
        (database.executeParams sql read).run session.database =
          .ok code state ∧
        result = (sql, code) ∧
        after = ⟨state, session.calls ++ [.executeParams sql read]⟩ := by
  rw [query_request build database hsql, run_bind_eq_ok]
  constructor
  · rintro ⟨read, middle, hresult, h⟩
    obtain ⟨hread, rfl⟩ := run_ofExcept_eq_ok.mp hresult
    rw [run_bind_of_ok (noteCall_run session _), run_bind_eq_ok] at h
    obtain ⟨code, middle, hcode, hpure⟩ := h
    obtain ⟨state, hstate, rfl⟩ := onDatabase_run_eq_ok.mp hcode
    obtain ⟨rfl, rfl⟩ := run_pure_eq_ok.mp hpure
    exact ⟨read, code, state, hread, hstate, rfl, rfl⟩
  · rintro ⟨read, code, state, hread, hstate, rfl, rfl⟩
    refine ⟨read, session, run_ofExcept_eq_ok.mpr ⟨hread, rfl⟩, ?_⟩
    rw [run_bind_of_ok (noteCall_run session _), run_bind_eq_ok]
    exact ⟨code, _, onDatabase_run_eq_ok.mpr ⟨state, hstate, rfl⟩, rfl⟩

/-- What a statement that returns no rows is answered with. -/
def statementResponse (database : QueryDatabase δ) (version : String)
    (state : δ) (code : Int) : Json :=
  if code = 0 then (versionObject version).setMember "result" (.integer 0)
  else (versionObject version).setMember "error"
    (errorObject code (database.getError state).2)

theorem reply_run_of_query {request : Json} (version : String)
    {session after : Session δ} {code : Int}
    (hsql : jsonGetQueryMethod sql ≠ "SELECT")
    (hquery : (build.query database request).run session =
      .ok (sql, code) after) :
    (build.reply database request version).run session =
      .ok (build.dump (echoed
        (statementResponse database version after.database code)
        (request.find? "id"))) after := by
  rw [Build.reply, run_bind_of_ok hquery, statementResponse]
  by_cases hcode : code = 0
  · simp only [if_pos hcode, Build.result, if_neg hsql]
    rfl
  · simp only [if_neg hcode]
    rfl

theorem find?_echoed (response id : Json) :
    (echoed response (some id)).find? "id" = some id := by
  rw [echoed, Json.find?_setMember, if_pos rfl]

theorem jsonProcess_request {text : String} {params : Json}
    (hparse : build.parse text = .ok (requestObject id params)) :
    build.jsonProcess database text =
      build.reply database (requestObject id params) "2.0" := by
  rw [Build.jsonProcess, hparse]
  cases build <;> rfl

/-! ## Requests without arguments -/

/-- The relation of what makes no call that is noted. -/
def SameCalls (session after : Session δ) : Prop :=
  after.calls = session.calls

instance : IsPreorder (Session δ) SameCalls where
  refl _ := rfl
  trans _ _ _ hfirst hnext := Eq.trans hnext hfirst

theorem onDatabase_keeps (action : EStateM Fault δ α) :
    Relates SameCalls (onDatabase action) := by
  intro session
  rw [stateAfter, onDatabase_run]
  cases action.run session.database <;> rfl

theorem result_keeps (sql : String) :
    Relates SameCalls (build.result database sql) := by
  unfold Build.result
  split
  · refine relates_bind (onDatabase_keeps _) fun text => ?_
    split
    · exact relates_pure none
    · exact relates_bind_pure (relates_ofExcept _)
    · exact relates_throw _
    · exact relates_pure _
  · exact relates_pure _

theorem query_plain (id sql : String) :
    build.query database (requestObject id (sqlParams sql)) = (do
      noteCall (.execute sql)
      let code ← onDatabase (database.execute sql)
      pure (sql, code)) := rfl

/-- Any statement, a SELECT too, is executed as it is. -/
theorem calls_plain (session : Session δ)
    (hparse : build.parse (build.jsonTranslate id sql) =
      .ok (requestObject id (sqlParams sql))) :
    (stateAfter (build.jsonProcess database (build.jsonTranslate id sql))
      session).calls = session.calls ++ [.execute sql] := by
  rw [jsonProcess_request build database hparse, Build.reply, query_plain,
    bind_assoc, stateAfter_bind_of_ok (noteCall_run session _)]
  refine relates_bind (relates_bind_pure (onDatabase_keeps _))
    (fun executed => ?_) { session with calls := session.calls ++ [.execute sql] }
  obtain ⟨statement, code⟩ := executed
  dsimp only
  split
  · refine relates_bind (result_keeps build database statement) fun result => ?_
    cases result with
    | none => exact relates_pure ""
    | some result => exact relates_pure _
  · exact relates_bind_pure relates_get

/-! ## Requests with arguments -/

theorem translated_of_few (hsql : jsonGetQueryMethod sql ≠ "SELECT")
    (hfew : args.length < 2 ^ 31) :
    build.jsonTranslateArgs id sql args =
      .ok (build.dump (requestObject id (build.argsParams sql args))) := by
  have hselect : assertThat (jsonGetQueryMethod sql ≠ "SELECT") = .ok () :=
    if_pos (decide_eq_true hsql)
  rw [Build.jsonTranslateArgs, hselect]
  exact if_pos hfew

theorem few_of_translated {text : String}
    (h : build.jsonTranslateArgs id sql args = .ok text) :
    args.length < 2 ^ 31 ∧
      text = build.dump (requestObject id (build.argsParams sql args)) := by
  rw [Build.jsonTranslateArgs, bind_eq_ok] at h
  obtain ⟨done, -, h⟩ := h
  split at h
  · exact ⟨‹_›, (Except.ok.inj h).symm⟩
  · cases h

theorem counts_few (h : build.Counts args) : args.length < 2 ^ 31 := by
  cases build with
  | qt fromJson toJson => exact h
  | nlohmann parse dump =>
      have hlength : args.length = 1 := h
      omega

/-- The request makes this one call, and the reply has the id of the
request. -/
def Build.Served (id sql : String) (args : List String)
    (session : Session δ) : Prop :=
  ∃ request reply after response,
    build.jsonTranslateArgs id sql args = .ok request ∧
    (build.jsonProcess database request).run session = .ok reply after ∧
    after.calls = session.calls ++ [.executeParams sql args] ∧
    reply = build.dump response ∧
    response.find? "id" = some (.string id)

/-- The library reads the text that it has written as nothing else. -/
def Build.ReadsBack (json : Json) : Prop :=
  ∀ other, build.parse (build.dump json) = .ok other → other = json

/-- A statement with arguments is served exactly if the build reads back as many
as there are, the text parses and the database comes back. -/
theorem served_iff {session : Session δ}
    (hsql : jsonGetQueryMethod sql ≠ "SELECT")
    (hparse : build.ReadsBack (requestObject id (build.argsParams sql args))) :
    build.Served database id sql args session ↔
      build.Counts args ∧
      Yields (build.parse (build.dump
        (requestObject id (build.argsParams sql args)))) ∧
      Returns (database.executeParams sql args) session.database := by
  constructor
  · rintro ⟨request, reply, after, response, htranslate, hrun, hcalls, -, -⟩
    obtain ⟨hfew, rfl⟩ := few_of_translated build htranslate
    cases hjson : build.parse (build.dump
        (requestObject id (build.argsParams sql args))) with
    | error data =>
        rw [Build.jsonProcess, hjson, run_pure_eq_ok] at hrun
        rw [← hrun.2] at hcalls
        simp at hcalls
    | ok json =>
        have hrequest := hparse json hjson
        subst hrequest
        rw [jsonProcess_request build database hjson] at hrun
        obtain ⟨result, middle, hquery, -⟩ := run_bind_eq_ok.mp hrun
        obtain ⟨read, code, state, hread, hstate, rfl, rfl⟩ :=
          (query_run_eq_ok build database hsql).mp hquery
        rw [reply_run_of_query build database "2.0" hsql hquery,
          EStateM.Result.ok.injEq] at hrun
        rw [← hrun.2] at hcalls
        have hcall := List.append_cancel_left hcalls
        have hargs : read = args := by simpa using hcall
        subst hargs
        exact ⟨counts_of_processArgs build hfew
          (find?_argsParams_count build sql read) hread,
          ⟨_, rfl⟩, code, state, hstate⟩
  · rintro ⟨hcounts, ⟨json, hjson⟩, code, state, hstate⟩
    have hrequest := hparse json hjson
    subst hrequest
    have hquery : (build.query database
        (requestObject id (build.argsParams sql args))).run session =
          .ok (sql, code)
            ⟨state, session.calls ++ [.executeParams sql args]⟩ :=
      (query_run_eq_ok build database hsql).mpr
        ⟨args, code, state, processArgs_of_counts build sql hcounts, hstate,
          rfl, rfl⟩
    have hrun := reply_run_of_query build database "2.0" hsql hquery
    rw [← jsonProcess_request build database hjson] at hrun
    exact ⟨_, _, _, _, translated_of_few build hsql (counts_few build hcounts),
      hrun, rfl, rfl, find?_echoed _ (.string id)⟩

end Reply

/-! ## Two arguments -/

def cartId : String := "4815162342"

def cartSql : String := "INSERT INTO cart (uuid, user_id) VALUES ($1, $2)"

def cartArgs : List String := ["5f2c", "7"]

def cartRequest (count : Json) : Json :=
  requestObject cartId
    (insertArgs ((sqlParams cartSql).setMember "count" count) 0 cartArgs)

def cartText : String :=
  "\x7b\n    \"id\": \"4815162342\",\n    \"jsonrpc\": \"2.0\",\n" ++
  "    \"method\": \"query\",\n    \"params\": \x7b\n" ++
  "        \"1\": \"5f2c\",\n        \"2\": \"7\",\n        \"count\": 2,\n" ++
  "        \"sql\": \"INSERT INTO cart (uuid, user_id) VALUES ($1, $2)\"\n" ++
  "    \x7d\n\x7d"

def cartReplyText : String :=
  "\x7b\n    \"id\": \"4815162342\",\n    \"jsonrpc\": \"2.0\",\n" ++
  "    \"result\": 0\n\x7d"

def cartDump (json : Json) : String :=
  if json.contains "method" then cartText else cartReplyText

/-- Qt ends a text with a line break. -/
def cartQt : Build :=
  .qt (fun text =>
      if text = cartText ++ "\n" then .ok (cartRequest (.integer 2))
      else .error .illegalValue)
    fun json => cartDump json ++ "\n"

def cartNlohmann : Build :=
  .nlohmann (fun text =>
      if text = cartText then .ok (cartRequest (.unsigned 2))
      else .error "syntax error")
    cartDump

/-- A database whose statement has two parameters. -/
def cartDatabase : QueryDatabase (Process Unit Unit) :=
  sqliteDatabase { emptyEngine with bindParameterCount := fun _ => 2 }
    settingsDump 0

def cartSession : Session (Process Unit Unit) :=
  ⟨⟨(), fun _ => ⟨some (), true, "data.sqlite3", []⟩, .null, []⟩, []⟩

theorem cartDump_request (count : Json) :
    cartDump (cartRequest count) = cartText :=
  if_pos rfl

theorem cartQt_parse :
    cartQt.parse (cartQt.dump (cartRequest (.integer 2))) =
      .ok (cartRequest (.integer 2)) := by
  have hdump : cartQt.dump (cartRequest (.integer 2)) = cartText ++ "\n" :=
    congrArg (fun text => text ++ "\n") (cartDump_request _)
  rw [hdump, cartQt, Build.parse, if_pos rfl]
  rfl

theorem cartNlohmann_parse :
    cartNlohmann.parse cartText = .ok (cartRequest (.unsigned 2)) := by
  rw [cartNlohmann, Build.parse, if_pos rfl]

theorem served_cart :
    cartQt.Served cartDatabase cartId cartSql cartArgs cartSession := by
  refine (served_iff cartQt cartDatabase (by decide) ?_).mpr
    ⟨?_, ⟨_, cartQt_parse⟩, _, _, rfl⟩
  · intro other hother
    exact (Except.ok.inj (cartQt_parse.symm.trans hother)).symm
  · show cartArgs.length < 2 ^ 31
    decide

theorem only_first_argument :
    cartNlohmann.ReadsBack
        (requestObject cartId (cartNlohmann.argsParams cartSql cartArgs)) ∧
      Returns (cartDatabase.executeParams cartSql cartArgs)
        cartSession.database ∧
      (∃ after, (cartNlohmann.jsonProcess cartDatabase cartText).run
          cartSession = .error .assertionFailed after ∧
        after.calls = [.executeParams cartSql ["5f2c"]]) ∧
      ¬ cartNlohmann.Served cartDatabase cartId cartSql cartArgs
        cartSession := by
  have hdump : cartNlohmann.dump (cartRequest (.unsigned 2)) = cartText :=
    cartDump_request _
  have hprocess : ∃ after, (cartNlohmann.jsonProcess cartDatabase cartText).run
      cartSession = .error .assertionFailed after ∧
        after.calls = [.executeParams cartSql ["5f2c"]] := by
    rw [Build.jsonProcess, cartNlohmann_parse]
    exact ⟨_, rfl, rfl⟩
  refine ⟨fun other hother => ?_, ⟨_, _, rfl⟩, hprocess, ?_⟩
  · have hparse := cartNlohmann_parse
    rw [← hdump] at hparse
    exact (Except.ok.inj (hparse.symm.trans hother)).symm
  · rintro ⟨request, reply, after, response, htranslate, hrun, -⟩
    obtain ⟨-, rfl⟩ := few_of_translated cartNlohmann htranslate
    obtain ⟨last, hfault, -⟩ := hprocess
    rw [← hdump] at hfault
    cases hfault.symm.trans hrun

end Neroshop.Rpc.JsonRpc
