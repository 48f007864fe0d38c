import Mathlib.Data.List.Forall2
import Neroshop.Foundation.Effects
import Neroshop.Foundation.Transition
import Neroshop.Json

/-!
# One document for the rows of all statements

`sqlite3_exec` gives every row of every statement to one static callback, which
appends it to one static document.  `get_select` returns the document and
empties it.  What it returns after a SELECT therefore also holds the rows that
earlier statements have left there, and opening a database leaves some.
-/

namespace Neroshop.Json

/-- `push_back`: a null becomes an array first. -/
def pushBack : Json → Json → Except Fault Json
  | .null, element => .ok (.array [element])
  | .array elements, element => .ok (.array (elements ++ [element]))
  | _, _ => .error .typeError

/-- `clear`, which leaves a null as it is. -/
def clear : Json → Json
  | .null => .null
  | .boolean _ => .boolean false
  | .integer _ => .integer 0
  | .unsigned _ => .unsigned 0
  | .float _ => .float 0
  | .string _ => .string ""
  | .array _ => .array []
  | .object _ => .object []

end Neroshop.Json

namespace Neroshop.Database

open Neroshop.Foundation

/-- `SQLITE_OK`. -/
def sqliteOk : Int := 0

/-- `SQLITE_DONE`. -/
def sqliteDone : Int := 101

/-- The columns of a result row by their names, of which there is one at
least. -/
abbrev Row := { columns : List (String × Option String) // columns ≠ [] }

/-- The rows that `sqlite3_exec` has given to the callback, a failed statement
its first ones, and how it ended. -/
structure Execution where
  rows : List Row
  code : Int
  message : String

/-- The SQLite library, with all of its databases in one state. -/
structure Engine (σ Handle Statement : Type) where
  threadsafe : Bool
  openV2 : String → Int → σ → (Int × Option Handle) × σ
  closeHandle : Handle → σ → Int × σ
  exec : Handle → String → σ → Execution × σ
  prepareV2 : Handle → String → σ → (Int × Statement) × σ
  bindParameterCount : Statement → Nat
  bindText : Statement → Nat → String → σ → Int × σ
  step : Statement → σ → Int × σ
  finalize : Statement → σ → Int × σ
  errmsg : Handle → σ → String

structure Sqlite3 (Handle : Type) where
  handle : Option Handle
  opened : Bool
  filename : String
  errors : List (Int × String)

/-- `get_error`: the last one. -/
def Sqlite3.getError {Handle : Type} (object : Sqlite3 Handle) : Int × String :=
  object.errors.getLastD (0, "")

/-- What the static document has been through. -/
inductive Note where
  | row (columns : Row)
  | drained

/-- The objects by number, as they are until something is done with them. -/
structure Process (σ Handle : Type) where
  engine : σ
  objects : Nat → Sqlite3 Handle
  jsonObject : Json
  /-- Not in the program: the history of the document, the latest first. -/
  log : List Note

abbrev Call (σ Handle α : Type) := EStateM Fault (Process σ Handle) α

variable {σ Handle Statement α : Type}

def Process.start (engine : σ) : Process σ Handle :=
  ⟨engine, fun _ => ⟨none, false, "", []⟩, .null, []⟩

/-! ## The calls -/

def library (action : σ → α × σ) : Call σ Handle α :=
  modifyGet fun process =>
    ((action process.engine).1,
      { process with engine := (action process.engine).2 })

def update (this : Nat) (change : Sqlite3 Handle → Sqlite3 Handle) :
    Call σ Handle Unit :=
  modify fun process =>
    { process with
      objects := Function.update process.objects this
        (change (process.objects this)) }

def pushErrors (this : Nat) (errors : List (Int × String)) :
    Call σ Handle Unit :=
  update this fun object => { object with errors := object.errors ++ errors }

def connected (this : Nat) : Call σ Handle Handle := do
  match ((← get).objects this).handle with
  | some handle => pure handle
  | none => throw .runtimeError

/-- A column without a text is written `NULL`. -/
def columnJson (column : String × Option String) : String × Json :=
  (column.1, .string (column.2.getD "NULL"))

def setColumn (row : Json) (column : String × Option String) : Json :=
  row.setMember (columnJson column).1 (columnJson column).2

/-- The row that the callback makes. -/
def rowJson (columns : List (String × Option String)) : Json :=
  columns.foldl setColumn .null

def callback (columns : Row) : Call σ Handle Unit := do
  let process ← get
  let document ← MonadExcept.ofExcept
    (process.jsonObject.pushBack (rowJson columns.1))
  set { process with
    jsonObject := document
    log := .row columns :: process.log }

def getSelect (dump : Json → Except Fault String) : Call σ Handle String := do
  let process ← get
  let json ← MonadExcept.ofExcept (dump process.jsonObject)
  set { process with
    jsonObject := process.jsonObject.clear
    log := .drained :: process.log }
  pure json

/-- `get_text`, `get_rows` and the other getters, which step through a
statement of their own and leave the callback out. -/
def read (this : Nat)
    (statement : Handle → σ → List (Int × String) × σ) :
    Call σ Handle Unit := do
  let handle ← connected this
  let errors ← library (statement handle)
  pushErrors this errors

namespace Engine

variable (engine : Engine σ Handle Statement)

def execute (this : Nat) (command : String) : Call σ Handle Int := do
  let handle ← connected this
  let execution ← library (engine.exec handle command)
  forM execution.rows callback
  if execution.code ≠ sqliteOk then
    pushErrors this [(execution.code, execution.message)]
  pure execution.code

def close (this : Nat) : Call σ Handle Unit := do
  match ((← get).objects this).handle with
  | none => pure ()
  | some handle =>
      let code ← library (engine.closeHandle handle)
      if code = sqliteOk then
        update this fun object =>
          { object with handle := none, opened := false }

def openDatabase (this : Nat) (filename : String) (flags : Int) :
    Call σ Handle Bool := do
  if ((← get).objects this).opened then pure true
  else
    let (code, handle) ← library (engine.openV2 filename flags)
    update this fun object => { object with handle := handle }
    if code ≠ sqliteOk then
      engine.close this
      pure false
    else
      let _ ← engine.execute this "PRAGMA foreign_keys = ON;"
      let _ ← engine.execute this "PRAGMA journal_mode = WAL;"
      let _ ← engine.execute this "PRAGMA busy_timeout = 5000;"
      let _ ← engine.execute this "PRAGMA synchronous = NORMAL;"
      if engine.threadsafe then
        update this fun object =>
          { object with opened := true, filename := filename }
        pure true
      else throw .assertionFailed

/-- The result code is noted with the message that the library has for it. -/
def failed (this : Nat) (handle : Handle) (code : Int) : Call σ Handle Unit := do
  let process ← get
  pushErrors this [(code, engine.errmsg handle process.engine)]

/-- The parameters are numbered from `index` on. -/
def bindArgs (statement : Statement) (index : Nat) :
    List String → Call σ Handle Int
  | [] => pure sqliteOk
  | arg :: args => do
      let code ← library (engine.bindText statement index arg)
      if code ≠ sqliteOk then pure code
      else bindArgs statement (index + 1) args

def executeParams (this : Nat) (command : String) (args : List String) :
    Call σ Handle Int := do
  let handle ← connected this
  let (code, statement) ← library (engine.prepareV2 handle command)
  if code ≠ sqliteOk then
    engine.failed this handle code
    pure code
  else if args.length ≠ engine.bindParameterCount statement then
    throw .assertionFailed
  else
    let code ← engine.bindArgs statement 1 args
    if code ≠ sqliteOk then
      engine.failed this handle code
      let _ ← library (engine.finalize statement)
      pure code
    else
      let code ← library (engine.step statement)
      if code ≠ sqliteDone then
        engine.failed this handle code
        let _ ← library (engine.finalize statement)
        pure code
      else
        let code ← library (engine.finalize statement)
        if code ≠ sqliteOk then
          engine.failed this handle code
          let _ ← library (engine.finalize statement)
          pure code
        else pure code

end Engine

inductive Event (σ Handle : Type) where
  | opened (this : Nat) (filename : String) (flags : Int)
  | closed (this : Nat)
  | executed (this : Nat) (command : String)
  | executedParams (this : Nat) (command : String) (args : List String)
  | read (this : Nat) (statement : Handle → σ → List (Int × String) × σ)
  | selected

/-- The process goes on after an exception, and not after a failed
assertion. -/
def settle (call : Call σ Handle α) (process : Process σ Handle) :
    Option (Process σ Handle) :=
  match call.run process with
  | .ok _ after => some after
  | .error fault after => if fault = .assertionFailed then none else some after

def Engine.event (engine : Engine σ Handle Statement)
    (dump : Json → Except Fault String) (process : Process σ Handle) :
    Event σ Handle → Option (Process σ Handle)
  | .opened this filename flags =>
      settle (engine.openDatabase this filename flags) process
  | .closed this => settle (engine.close this) process
  | .executed this command => settle (engine.execute this command) process
  | .executedParams this command args =>
      settle (engine.executeParams this command args) process
  | .read this statement => settle (read this statement) process
  | .selected => settle (getSelect dump) process

/-! ## The document and its history -/

/-- The rows that no `get_select` has taken, once there has been a row. -/
def waiting : List Note → Option (List Row)
  | [] => none
  | .row columns :: log => some ((waiting log).getD [] ++ [columns])
  | .drained :: log => (waiting log).map fun _ => []

/-- The document is null until the first row of the process comes. -/
def document : Option (List Row) → Json
  | none => .null
  | some rows => .array (rows.map fun columns => rowJson columns.1)

def Collected (process : Process σ Handle) : Prop :=
  process.jsonObject = document (waiting process.log)

theorem collected_start (engine : σ) :
    Collected (Process.start engine : Process σ Handle) := rfl

theorem pushBack_document (rows : Option (List Row)) (columns : Row) :
    (document rows).pushBack (rowJson columns.1) =
      .ok (document (some (rows.getD [] ++ [columns]))) := by
  cases rows with
  | none => rfl
  | some rows => simp [document, Json.pushBack]

theorem clear_document (rows : Option (List Row)) :
    (document rows).clear = document (rows.map fun _ => []) := by
  cases rows <;> rfl

/-- The process with the row in the document and in its history. -/
def Process.taken (process : Process σ Handle) (columns : Row) :
    Process σ Handle :=
  { process with
    jsonObject := document (waiting (.row columns :: process.log))
    log := .row columns :: process.log }

/-- The callback finds a document to which a row can be appended. -/
theorem callback_run {process : Process σ Handle} (h : Collected process)
    (columns : Row) :
    (callback columns).run process = .ok () (process.taken columns) := by
  rw [callback, run_get_bind, h, pushBack_document]
  rfl

theorem callbacks_run {process : Process σ Handle} (h : Collected process)
    (rows : List Row) :
    (forM rows callback).run process =
      .ok () (rows.foldl Process.taken process) := by
  induction rows generalizing process with
  | nil => rfl
  | cons columns rows ih =>
      rw [List.forM_cons, run_bind_of_ok (callback_run h columns)]
      exact ih rfl

theorem collected_foldl {process : Process σ Handle} (h : Collected process)
    (rows : List Row) : Collected (rows.foldl Process.taken process) := by
  induction rows generalizing process with
  | nil => exact h
  | cons columns rows ih => exact ih rfl

/-- What waits when rows have come to what has been waiting. -/
def joined (earlier : Option (List Row)) : List Row → Option (List Row)
  | [] => earlier
  | rows => some (earlier.getD [] ++ rows)

theorem waiting_foldl (process : Process σ Handle) (rows : List Row) :
    waiting (rows.foldl Process.taken process).log =
      joined (waiting process.log) rows := by
  induction rows generalizing process with
  | nil => rfl
  | cons columns rows ih =>
      rw [List.foldl_cons, ih]
      cases rows with
      | nil => rfl
      | cons next rows =>
          simp [joined, Process.taken, waiting]

/-! ## What every call keeps -/

/-- The relation of a call that leaves the document to its history. -/
def Kept (process after : Process σ Handle) : Prop :=
  Collected process → Collected after

instance : IsPreorder (Process σ Handle) Kept where
  refl _ := id
  trans _ _ _ hfirst hnext := hnext ∘ hfirst

theorem library_keeps (action : σ → α × σ) :
    Relates Kept (library action : Call σ Handle α) :=
  fun _ => id

theorem update_keeps (this : Nat) (change : Sqlite3 Handle → Sqlite3 Handle) :
    Relates Kept (update this change : Call σ Handle Unit) :=
  fun _ => id

theorem connected_keeps (this : Nat) :
    Relates Kept (connected this : Call σ Handle Handle) := by
  refine relates_bind relates_get fun process => ?_
  cases (process.objects this).handle with
  | none => exact relates_throw _
  | some handle => exact relates_pure handle

theorem callbacks_keep (rows : List Row) :
    Relates Kept (forM rows callback : Call σ Handle Unit) := by
  intro process h
  rw [stateAfter, callbacks_run h]
  exact collected_foldl h rows

theorem getSelect_keeps (dump : Json → Except Fault String) :
    Relates Kept (getSelect dump : Call σ Handle String) := by
  intro process h
  rw [Collected] at h
  rw [getSelect, stateAfter, run_get_bind]
  cases hdump : dump process.jsonObject with
  | error fault => exact h
  | ok json =>
      rw [h]
      exact clear_document _

theorem read_keeps (this : Nat)
    (statement : Handle → σ → List (Int × String) × σ) :
    Relates Kept (read this statement) := by
  refine relates_bind (connected_keeps this) fun handle => ?_
  refine relates_bind (library_keeps _) fun errors => ?_
  exact update_keeps this _

section Engine

variable (engine : Engine σ Handle Statement)

theorem execute_keeps (this : Nat) (command : String) :
    Relates Kept (engine.execute this command) := by
  refine relates_bind (connected_keeps this) fun handle => ?_
  refine relates_bind (library_keeps _) fun execution => ?_
  refine relates_bind (callbacks_keep execution.rows) fun _ => ?_
  split
  · exact relates_bind_pure (update_keeps this _)
  · exact relates_pure execution.code

theorem close_keeps (this : Nat) : Relates Kept (engine.close this) := by
  refine relates_bind relates_get fun process => ?_
  cases (process.objects this).handle with
  | none => exact relates_pure ()
  | some handle =>
      refine relates_bind (library_keeps _) fun code => ?_
      split
      · exact update_keeps this _
      · exact relates_pure ()

theorem openDatabase_keeps (this : Nat) (filename : String) (flags : Int) :
    Relates Kept (engine.openDatabase this filename flags) := by
  refine relates_bind relates_get fun process => ?_
  split
  · exact relates_pure true
  · refine relates_bind (library_keeps _) fun ⟨code, handle⟩ => ?_
    refine relates_bind (update_keeps this _) fun _ => ?_
    split
    · exact relates_bind_pure (close_keeps engine this)
    · refine relates_bind (execute_keeps engine this _) fun _ => ?_
      refine relates_bind (execute_keeps engine this _) fun _ => ?_
      refine relates_bind (execute_keeps engine this _) fun _ => ?_
      refine relates_bind (execute_keeps engine this _) fun _ => ?_
      split
      · exact relates_bind_pure (update_keeps this _)
      · exact relates_throw _

theorem failed_keeps (this : Nat) (handle : Handle) (code : Int) :
    Relates Kept (engine.failed this handle code) :=
  relates_bind relates_get fun _ => update_keeps this _

theorem failed_finalize_keeps (this : Nat) (handle : Handle) (code : Int)
    (statement : Statement) :
    Relates Kept (do
      engine.failed this handle code
      let _ ← library (engine.finalize statement)
      pure code : Call σ Handle Int) :=
  relates_bind (failed_keeps engine this handle code) fun _ =>
    relates_bind_pure (library_keeps _)

theorem bindArgs_keeps (statement : Statement) (index : Nat)
    (args : List String) :
    Relates Kept (engine.bindArgs statement index args) := by
  induction args generalizing index with
  | nil => exact relates_pure sqliteOk
  | cons arg args ih =>
      refine relates_bind (library_keeps _) fun code => ?_
      split
      · exact relates_pure code
      · exact ih (index + 1)

theorem executeParams_keeps (this : Nat) (command : String)
    (args : List String) :
    Relates Kept (engine.executeParams this command args) := by
  refine relates_bind (connected_keeps this) fun handle => ?_
  refine relates_bind (library_keeps _) fun ⟨code, statement⟩ => ?_
  dsimp only
  split
  · exact relates_bind_pure (failed_keeps engine this handle code)
  split
  · exact relates_throw _
  refine relates_bind (bindArgs_keeps engine statement 1 args) fun code => ?_
  split
  · exact failed_finalize_keeps engine this handle code statement
  refine relates_bind (library_keeps _) fun code => ?_
  split
  · exact failed_finalize_keeps engine this handle code statement
  refine relates_bind (library_keeps _) fun code => ?_
  split
  · exact failed_finalize_keeps engine this handle code statement
  · exact relates_pure code

theorem settle_keeps {call : Call σ Handle α} (hcall : Relates Kept call)
    {process after : Process σ Handle} (hsettle : settle call process = some after)
    (h : Collected process) : Collected after := by
  have hafter : stateAfter call process = after := by
    unfold settle at hsettle
    unfold stateAfter
    cases hrun : call.run process with
    | ok value state =>
        rw [hrun] at hsettle
        exact Option.some.inj hsettle
    | error fault state =>
        rw [hrun] at hsettle
        by_cases hfault : fault = .assertionFailed
        · simp [hfault] at hsettle
        · simpa [hfault] using hsettle
  rw [← hafter]
  exact hcall process h

theorem event_keeps {dump : Json → Except Fault String}
    {process after : Process σ Handle} {event : Event σ Handle}
    (hevent : engine.event dump process event = some after)
    (h : Collected process) : Collected after := by
  cases event with
  | opened this filename flags =>
      exact settle_keeps (openDatabase_keeps engine this filename flags) hevent h
  | closed this => exact settle_keeps (close_keeps engine this) hevent h
  | executed this command =>
      exact settle_keeps (execute_keeps engine this command) hevent h
  | executedParams this command args =>
      exact settle_keeps (executeParams_keeps engine this command args) hevent h
  | read this statement =>
      exact settle_keeps (read_keeps this statement) hevent h
  | selected => exact settle_keeps (getSelect_keeps dump) hevent h

/-- The document of every run is what its history says. -/
theorem run_collected {dump : Json → Except Fault String} {start : σ}
    {events : List (Event σ Handle)} {process : Process σ Handle}
    (hrun : runFrom (engine.event dump) (.start start) events = some process) :
    Collected process :=
  runFrom_invariant_of_step (fun _ _ _ h hevent => event_keeps engine hevent h)
    hrun (collected_start start)

end Engine

/-! ## The rows of one SELECT -/

/-- The object has the columns of the row and no others. -/
def HoldsRow (element : Json) (columns : Row) : Prop :=
  ∃ members, element = .object members ∧
    members.Perm (columns.1.map columnJson)

theorem map_fst_columnJson (columns : List (String × Option String)) :
    (columns.map columnJson).map Prod.fst = columns.map Prod.fst := by
  rw [List.map_map]
  rfl

theorem setColumns_nodup (columns : List (String × Option String))
    {members : List (String × Json)} (h : (members.map Prod.fst).Nodup) :
    ∃ others, columns.foldl setColumn (.object members) = .object others ∧
      (others.map Prod.fst).Nodup := by
  induction columns generalizing members with
  | nil => exact ⟨members, rfl, h⟩
  | cons column columns ih =>
      refine ih ?_
      rw [List.map_cons, List.nodup_cons]
      refine ⟨fun hmem => ?_, h.sublist (List.filter_sublist.map _)⟩
      obtain ⟨member, hmember, hname⟩ := List.mem_map.mp hmem
      exact of_decide_eq_true (List.mem_filter.mp hmember).2 hname

theorem setColumns_of_nodup (columns : List (String × Option String))
    {members : List (String × Json)}
    (h : (columns.map Prod.fst ++ members.map Prod.fst).Nodup) :
    columns.foldl setColumn (.object members) =
      .object ((columns.map columnJson).reverse ++ members) := by
  induction columns generalizing members with
  | nil => rfl
  | cons column columns ih =>
      rw [List.map_cons, List.cons_append] at h
      have hname : column.1 ∉ members.map Prod.fst := fun hmem =>
        (List.nodup_cons.mp h).1 (List.mem_append_right _ hmem)
      have hfilter : members.filter (fun member => member.1 ≠ column.1) =
          members := by
        refine List.filter_eq_self.mpr fun member hmember => ?_
        refine decide_eq_true fun hfirst => hname ?_
        rw [← hfirst]
        exact List.mem_map_of_mem hmember
      have hset : setColumn (.object members) column =
          .object (columnJson column :: members) :=
        congrArg (fun rest => Json.object (columnJson column :: rest)) hfilter
      have hnames : (columns.map Prod.fst ++
          (columnJson column :: members).map Prod.fst).Nodup :=
        List.perm_middle.nodup_iff.mpr h
      rw [List.foldl_cons, hset, ih hnames]
      simp

theorem rowJson_eq (columns : Row) :
    rowJson columns.1 = columns.1.foldl setColumn (.object []) := by
  obtain ⟨columns, hne⟩ := columns
  cases columns with
  | nil => exact absurd rfl hne
  | cons column columns => rfl

/-- Of the columns that share a name only the last one is kept. -/
theorem holdsRow_rowJson {columns : Row} :
    HoldsRow (rowJson columns.1) columns ↔
      (columns.1.map Prod.fst).Nodup := by
  rw [rowJson_eq]
  constructor
  · rintro ⟨members, hmembers, hperm⟩
    have hempty : (([] : List (String × Json)).map Prod.fst).Nodup :=
      List.nodup_nil
    obtain ⟨others, hothers, hnodup⟩ := setColumns_nodup columns.1 hempty
    rw [hothers, Json.object.injEq] at hmembers
    subst hmembers
    rw [(hperm.map Prod.fst).nodup_iff, map_fst_columnJson] at hnodup
    exact hnodup
  · intro h
    refine ⟨_, setColumns_of_nodup columns.1 (by simpa using h), ?_⟩
    rw [List.append_nil]
    exact List.reverse_perm _

section Select

variable (engine : Engine σ Handle Statement)
  (dump : Json → Except Fault String) (parse : String → Option Json)
  (process : Process σ Handle) (this : Nat) (command : String)

/-- The statement and the `get_select` after it return, and the text is an
array with these rows in their order. -/
def ExactSelect (rows : List Row) : Prop :=
  ∃ code selected json final elements,
    (engine.execute this command).run process = .ok code selected ∧
    (getSelect dump).run selected = .ok json final ∧
    parse json = some (.array elements) ∧
    List.Forall₂ HoldsRow elements rows

def ReadsBack (json : Json) : Prop :=
  ∀ text, dump json = .ok text → parse text = some json

/-- No rows are left from before, every column has a name of its own in its
row, and the rows have a text. -/
structure Separate (rows : List Row) : Prop where
  drained : waiting process.log = some [] ∨
    waiting process.log = none ∧ rows ≠ []
  names : ∀ columns ∈ rows, (columns.1.map Prod.fst).Nodup
  dumps : ∃ json, dump (document (some rows)) = .ok json

variable {engine dump parse process this command}

variable (engine command) in
theorem execute_run (h : Collected process) {handle : Handle}
    (hhandle : (process.objects this).handle = some handle) :
    ∃ code selected,
      (engine.execute this command).run process = .ok code selected ∧
      selected.jsonObject = document (joined (waiting process.log)
        (engine.exec handle command process.engine).1.rows) := by
  let execution := (engine.exec handle command process.engine).1
  let executed : Process σ Handle :=
    { process with engine := (engine.exec handle command process.engine).2 }
  have hconnected : (connected this).run process = .ok handle process := by
    rw [connected, run_get_bind, hhandle]
    rfl
  have hlibrary : (library (engine.exec handle command)).run process =
      .ok execution executed := rfl
  have hcollected : Collected executed := h
  have hdocument : (execution.rows.foldl Process.taken executed).jsonObject =
      document (joined (waiting process.log) execution.rows) := by
    rw [collected_foldl hcollected, waiting_foldl]
  rw [Engine.execute, run_bind_of_ok hconnected, run_bind_of_ok hlibrary,
    run_bind_of_ok (callbacks_run hcollected execution.rows)]
  by_cases hcode : execution.code ≠ sqliteOk
  · rw [if_pos hcode]
    exact ⟨_, _, rfl, hdocument⟩
  · rw [if_neg hcode]
    exact ⟨_, _, rfl, hdocument⟩

theorem getSelect_run_eq_ok {json : String} {after : Process σ Handle}
    (h : (getSelect dump).run process = .ok json after) :
    dump process.jsonObject = .ok json := by
  rw [getSelect, run_get_bind, run_bind_eq_ok] at h
  obtain ⟨text, middle, hdump, hset⟩ := h
  rw [run_ofExcept_eq_ok] at hdump
  rw [hdump.1]
  cases hset
  rfl

theorem getSelect_run_of_dump {json : String}
    (h : dump process.jsonObject = .ok json) :
    ∃ after, (getSelect dump).run process = .ok json after := by
  rw [getSelect, run_get_bind, h]
  exact ⟨_, rfl⟩

theorem forall₂_holdsRow {rows : List Row} :
    List.Forall₂ HoldsRow (rows.map fun columns => rowJson columns.1) rows ↔
      ∀ columns ∈ rows, (columns.1.map Prod.fst).Nodup := by
  rw [List.forall₂_map_left_iff, List.forall₂_same]
  simp only [holdsRow_rowJson]

theorem joined_eq (earlier : Option (List Row)) (rows : List Row) :
    earlier = none ∧ rows = [] ∨
      joined earlier rows = some (earlier.getD [] ++ rows) := by
  cases rows with
  | cons columns rows => exact .inr rfl
  | nil =>
      cases earlier with
      | none => exact .inl ⟨rfl, rfl⟩
      | some earlier => exact .inr (by simp [joined])

theorem joined_of_drained {earlier : Option (List Row)} {rows : List Row}
    (h : earlier = some [] ∨ earlier = none ∧ rows ≠ []) :
    joined earlier rows = some rows := by
  rcases joined_eq earlier rows with ⟨rfl, rfl⟩ | hjoined
  · simp at h
  · rcases h with rfl | ⟨rfl, -⟩ <;> exact hjoined

/-- Rows that others precede are not all of the document. -/
theorem drained_of_document {earlier : Option (List Row)} {rows : List Row}
    {elements : List Json}
    (h : document (joined earlier rows) = .array elements)
    (hrows : List.Forall₂ HoldsRow elements rows) :
    earlier = some [] ∨ earlier = none ∧ rows ≠ [] := by
  rcases joined_eq earlier rows with ⟨rfl, rfl⟩ | hjoined
  · cases h
  · rw [hjoined, document, Json.array.injEq] at h
    have hlength := hrows.length_eq
    rw [← h, List.length_map, List.length_append] at hlength
    have hempty : earlier.getD [] = [] :=
      List.length_eq_zero_iff.mp (by omega)
    cases earlier with
    | some earlier => exact .inl (congrArg some hempty)
    | none =>
        refine .inr ⟨rfl, fun hnone => ?_⟩
        subst hnone
        cases hjoined

/-- A SELECT after any run, on any object that has a connection. -/
theorem select_exact_iff {start : σ} {events : List (Event σ Handle)}
    (hrun : runFrom (engine.event dump) (.start start) events = some process)
    {handle : Handle} (hhandle : (process.objects this).handle = some handle)
    {rows : List Row}
    (hrows : (engine.exec handle command process.engine).1.rows = rows)
    (hparse : ReadsBack dump parse
      (document (joined (waiting process.log) rows))) :
    ExactSelect engine dump parse process this command rows ↔
      Separate dump process rows := by
  have hcollected := run_collected engine hrun
  obtain ⟨code, selected, hexecute, hdocument⟩ :=
    execute_run engine command hcollected hhandle
  rw [hrows] at hdocument
  constructor
  · rintro ⟨code', selected', json, final, elements, hexecute', hselect, hjson,
      helements⟩
    rw [hexecute, EStateM.Result.ok.injEq] at hexecute'
    obtain ⟨rfl, rfl⟩ := hexecute'
    have hdump := getSelect_run_eq_ok hselect
    rw [hdocument] at hdump
    have harray := hparse json hdump
    rw [hjson, Option.some.injEq] at harray
    have hdrained := drained_of_document harray.symm helements
    rw [joined_of_drained hdrained] at hdump harray
    rw [document, Json.array.injEq] at harray
    rw [harray, forall₂_holdsRow] at helements
    exact ⟨hdrained, helements, json, hdump⟩
  · rintro ⟨hdrained, hnames, json, hdump⟩
    rw [joined_of_drained hdrained] at hdocument hparse
    obtain ⟨final, hselect⟩ := getSelect_run_of_dump (hdocument ▸ hdump)
    exact ⟨code, selected, json, final, _, hexecute, hselect, hparse json hdump,
      forall₂_holdsRow.mpr hnames⟩

end Select

/-! ## A SELECT after opening the database -/

/-- Two of the settings answer with the value that is now set. -/
def settingRows (command : String) : List Row :=
  if command = "PRAGMA journal_mode = WAL;" then
    [⟨[("journal_mode", some "wal")], List.cons_ne_nil _ _⟩]
  else if command = "PRAGMA busy_timeout = 5000;" then
    [⟨[("timeout", some "5000")], List.cons_ne_nil _ _⟩]
  else []

/-- The library with a database that has no users yet. -/
def emptyEngine : Engine Unit Unit Unit where
  threadsafe := true
  openV2 _ _ _ := ((sqliteOk, some ()), ())
  closeHandle _ _ := (sqliteOk, ())
  exec _ command _ := (⟨settingRows command, sqliteOk, ""⟩, ())
  prepareV2 _ _ _ := ((sqliteOk, ()), ())
  bindParameterCount _ := 0
  bindText _ _ _ _ := (sqliteOk, ())
  step _ _ := (sqliteDone, ())
  finalize _ _ := (sqliteOk, ())
  errmsg _ _ := "not an error"

def settings : Json :=
  .array [.object [("journal_mode", .string "wal")],
    .object [("timeout", .string "5000")]]

def settingsText : String :=
  "[\x7b\"journal_mode\":\"wal\"\x7d,\x7b\"timeout\":\"5000\"\x7d]"

def settingsDump : Json → Except Fault String
  | .array [] => .ok "[]"
  | _ => .ok settingsText

def settingsParse (text : String) : Option Json :=
  if text = "[]" then some (.array [])
  else if text = settingsText then some settings
  else none

theorem select_exact_drained :
    ∃ process, runFrom (emptyEngine.event settingsDump) (.start ())
        [.opened 0 "data.sqlite3" 6, .selected] = some process ∧
      ExactSelect emptyEngine settingsDump settingsParse process 0
        "SELECT * FROM users;" [] := by
  have hrun : runFrom (emptyEngine.event settingsDump) (.start ())
      [.opened 0 "data.sqlite3" 6, .selected] = some _ := rfl
  refine ⟨_, hrun, (select_exact_iff hrun rfl rfl ?_).mpr ?_⟩
  · intro text htext
    cases htext
    rfl
  · exact ⟨.inl rfl, fun _ h => absurd h List.not_mem_nil, "[]", rfl⟩

theorem settings_selected :
    ∃ process, runFrom (emptyEngine.event settingsDump) (.start ())
        [.opened 0 "data.sqlite3" 6] = some process ∧
      (process.objects 0).handle = some () ∧
      (emptyEngine.exec () "SELECT * FROM users;" process.engine).1.rows = [] ∧
      ReadsBack settingsDump settingsParse
        (document (joined (waiting process.log) [])) ∧
      ¬ ExactSelect emptyEngine settingsDump settingsParse process 0
        "SELECT * FROM users;" [] := by
  refine ⟨_, rfl, rfl, rfl, ?_, ?_⟩
  · intro text htext
    cases htext
    rfl
  · rintro ⟨code, selected, json, final, elements, hexecute, hselect, hjson,
      hrows⟩
    cases hexecute
    cases hselect
    cases hjson
    cases hrows

end Neroshop.Database
