import Neroshop.Foundation.Words
import Neroshop.Network.SamDatagram
import Neroshop.Tools.Strings

/-!
# Replies of the SAM bridge

A reply is one line of words, and a word with an equals sign is a field.  The
control socket is read byte by byte up to the end of a line, so that what has
come in behind it stays for the next command.
-/

namespace Neroshop.Network

open Neroshop.Foundation Neroshop.Routing Neroshop.Tools

inductive SamResultType where
  | ok
  | noResult
  | unknownResult
  | socketClosed
  | noVersion
  | i2pError
  | duplicatedId
  | duplicatedDest
  | invalidKey
  | invalidId
  | timeout
  | cantReachPeer
  | keyNotFound
  | peerNotFound
  | leaseSetNotFound
  | alreadyAccepting
  deriving DecidableEq

structure SamReply where
  result : SamResultType
  rawReply : List UInt8
  deriving DecidableEq

/-! ## Fields -/

def equalsSign : UInt8 := 61

/-- A word without an equals sign is the key of an empty value. -/
def samField (token : List UInt8) : List UInt8 × List UInt8 :=
  (splitAround [equalsSign] token).getD (token, [])

def parseSamReply (reply : List UInt8) :
    Finmap fun _ : List UInt8 => List UInt8 :=
  fill (fun token => (samField token).1) (fun token => (samField token).2)
    (words isspace reply)

def getValue (reply key : List UInt8) : Except Fault (List UInt8) :=
  match (parseSamReply reply).lookup key with
  | some value => .ok value
  | none => .error .runtimeError

/-- The type that a value of `RESULT` stands for. -/
def resultNamed (value : List UInt8) : SamResultType :=
  if value = chars "OK" then .ok
  else if value = chars "NOVERSION" then .noVersion
  else if value = chars "I2P_ERROR" then .i2pError
  else if value = chars "DUPLICATED_ID" then .duplicatedId
  else if value = chars "DUPLICATED_DEST" then .duplicatedDest
  else if value = chars "INVALID_KEY" then .invalidKey
  else if value = chars "INVALID_ID" then .invalidId
  else if value = chars "TIMEOUT" then .timeout
  else if value = chars "CANT_REACH_PEER" then .cantReachPeer
  else if value = chars "KEY_NOT_FOUND" then .keyNotFound
  else if value = chars "PEER_NOT_FOUND" then .peerNotFound
  else if value = chars "LEASESET_NOT_FOUND" then .leaseSetNotFound
  else if value = chars "ALREADY_ACCEPTING" then .alreadyAccepting
  else .unknownResult

def getResult (reply : List UInt8) : SamResultType :=
  match (parseSamReply reply).lookup (chars "RESULT") with
  | some value => resultNamed value
  | none => .noResult

def getResultAsString : SamResultType → List UInt8
  | .ok => chars "OK"
  | .noResult => chars "NORESULT"
  | .unknownResult => chars "UNKNOWN_RESULT"
  | .socketClosed => chars "SOCKET_CLOSED"
  | .noVersion => chars "NOVERSION"
  | .i2pError => chars "I2P_ERROR"
  | .duplicatedId => chars "DUPLICATED_ID"
  | .duplicatedDest => chars "DUPLICATED_DEST"
  | .invalidKey => chars "INVALID_KEY"
  | .invalidId => chars "INVALID_ID"
  | .timeout => chars "TIMEOUT"
  | .cantReachPeer => chars "CANT_REACH_PEER"
  | .keyNotFound => chars "KEY_NOT_FOUND"
  | .peerNotFound => chars "PEER_NOT_FOUND"
  | .leaseSetNotFound => chars "LEASESET_NOT_FOUND"
  | .alreadyAccepting => chars "ALREADY_ACCEPTING"

/-! ## What a bridge writes -/

/-- A field that a reply can have: its value may hold equals signs. -/
structure IsSamField (key value : List UInt8) : Prop where
  key : ∀ symbol ∈ key, isspace symbol = false ∧ symbol ≠ equalsSign
  value : ∀ symbol ∈ value, isspace symbol = false

/-- A field behind the blanks in front of it. -/
structure SpacedField where
  blanks : List UInt8
  key : List UInt8
  value : List UInt8
  deriving DecidableEq

def SpacedField.token (field : SpacedField) : List UInt8 :=
  field.key ++ equalsSign :: field.value

def SpacedField.text (field : SpacedField) : List UInt8 :=
  field.blanks ++ field.token

structure SpacedField.WellFormed (field : SpacedField) : Prop where
  blanks_ne_nil : field.blanks ≠ []
  blanks : ∀ symbol ∈ field.blanks, isspace symbol = true
  isSamField : IsSamField field.key field.value

/-- A reply whose first words, the topic and what it is about, are no fields. -/
def samReplyLine (topic : List UInt8) (fields : List SpacedField) : List UInt8 :=
  topic ++ fields.flatMap SpacedField.text

section Fields

theorem samField_append {key : List UInt8} (value : List UInt8)
    (h : ∀ symbol ∈ key, symbol ≠ equalsSign) :
    samField (key ++ equalsSign :: value) = (key, value) := by
  have hsplit := @splitAround_append _ _ [equalsSign] key (by simp) value
    fun symbol hsymbol heq => h symbol hsymbol
      (show symbol = equalsSign by simpa using heq.symm)
  rw [List.append_assoc, List.singleton_append] at hsplit
  rw [samField, hsplit]
  rfl

theorem SpacedField.WellFormed.samField_token {field : SpacedField}
    (h : field.WellFormed) : samField field.token = (field.key, field.value) :=
  samField_append field.value fun symbol hsymbol =>
    (h.isSamField.key symbol hsymbol).2

theorem SpacedField.WellFormed.isWord {field : SpacedField}
    (h : field.WellFormed) : IsWord isspace field.token := by
  refine ⟨by simp [SpacedField.token], fun symbol hsymbol => ?_⟩
  rcases List.mem_append.mp hsymbol with hkey | hrest
  · exact (h.isSamField.key symbol hkey).1
  · rcases List.mem_cons.mp hrest with rfl | hvalue
    · decide
    · exact h.isSamField.value symbol hvalue

theorem SpacedField.WellFormed.words_append {field : SpacedField}
    (h : field.WellFormed) (front : List UInt8) :
    words isspace (front ++ field.text) =
      words isspace front ++ [field.token] := by
  obtain ⟨blanks, last, hblanks⟩ :=
    (List.eq_nil_or_concat field.blanks).resolve_left h.blanks_ne_nil
  have hlast : isspace last = true := h.blanks last (by rw [hblanks]; simp)
  have hrest : words isspace (front ++ blanks) = words isspace front := by
    have hall : ∀ symbol ∈ blanks, isspace symbol = true :=
      fun symbol hsymbol => h.blanks symbol (by rw [hblanks]; simp [hsymbol])
    clear hblanks
    induction blanks using List.reverseRecOn with
    | nil => rw [List.append_nil]
    | append_singleton blanks symbol ih =>
        rw [← List.append_assoc, words_append_blank _ (hall symbol (by simp)),
          words_nil, List.append_nil,
          ih fun other hother => hall other (by simp [hother])]
  rw [SpacedField.text, hblanks, List.concat_eq_append, List.append_assoc,
    List.singleton_append, ← List.append_assoc,
    words_append_isWord _ hlast h.isWord, hrest]

theorem words_samReplyLine (topic : List UInt8) {fields : List SpacedField}
    (h : ∀ field ∈ fields, field.WellFormed) :
    words isspace (samReplyLine topic fields) =
      words isspace topic ++ fields.map SpacedField.token := by
  induction fields using List.reverseRecOn with
  | nil => simp [samReplyLine]
  | append_singleton fields field ih =>
      have hfields := ih fun other hother => h other (by simp [hother])
      rw [samReplyLine] at hfields ⊢
      rw [List.flatMap_append, List.flatMap_singleton, ← List.append_assoc,
        (h field (by simp)).words_append, hfields]
      simp

/-- Whatever a reply is made of, the last word with the key decides. -/
theorem lookup_parseSamReply (reply key : List UInt8) :
    (parseSamReply reply).lookup key =
      (((words isspace reply).filter fun token =>
        (samField token).1 = key).getLast?).map fun token => (samField token).2 :=
  lookup_fill _ _

/-- No word of the topic has the key. -/
def TopicLacks (topic key : List UInt8) : Prop :=
  ∀ token ∈ words isspace topic, (samField token).1 ≠ key

theorem lookup_samReplyLine {topic key : List UInt8}
    (htopic : TopicLacks topic key) {fields : List SpacedField}
    (h : ∀ field ∈ fields, field.WellFormed) :
    (parseSamReply (samReplyLine topic fields)).lookup key =
      ((fields.filter fun field => field.key = key).getLast?).map
        SpacedField.value := by
  have hfront : ((words isspace topic).filter fun token =>
      (samField token).1 = key) = [] :=
    List.filter_eq_nil_iff.mpr fun token htoken => by
      simpa using htopic token htoken
  have hback : (fields.map SpacedField.token).filter (fun token =>
      (samField token).1 = key) =
      (fields.filter fun field => field.key = key).map SpacedField.token := by
    rw [List.filter_map]
    refine congrArg _ (List.filter_congr fun field hfield => ?_)
    rw [Function.comp_apply, (h field hfield).samField_token]
  rw [lookup_parseSamReply, words_samReplyLine topic h, List.filter_append,
    hfront, hback, List.nil_append, List.getLast?_map, Option.map_map]
  cases hlast : (fields.filter fun field => field.key = key).getLast? with
  | none => rfl
  | some field =>
      have hmem := (List.mem_filter.mp (List.mem_of_getLast? hlast)).1
      simp [(h field hmem).samField_token]

end Fields

/-! ## Results -/

/-- The types that a bridge can name. -/
def SamResultType.Named (result : SamResultType) : Prop :=
  result ≠ .noResult ∧ result ≠ .socketClosed

instance (result : SamResultType) : Decidable result.Named :=
  inferInstanceAs (Decidable (_ ∧ _))

theorem resultNamed_getResultAsString (result : SamResultType) :
    resultNamed (getResultAsString result) = result ↔ result.Named := by
  cases result <;> decide

theorem getResultAsString_resultNamed (value : List UInt8) :
    resultNamed value = .unknownResult ∨
      (resultNamed value).Named ∧ value = getResultAsString (resultNamed value) := by
  fun_cases resultNamed value
  all_goals first
    | exact .inl rfl
    | exact .inr ⟨by decide, by assumption⟩

/-- What a value of `RESULT` is read as. -/
def ReadsAs (value : List UInt8) (result : SamResultType) : Prop :=
  result.Named ∧ value = getResultAsString result ∨
    result = .unknownResult ∧
      ∀ named : SamResultType, named.Named → value ≠ getResultAsString named

theorem resultNamed_eq_iff (value : List UInt8) (result : SamResultType) :
    resultNamed value = result ↔ ReadsAs value result := by
  constructor
  · rintro rfl
    rcases getResultAsString_resultNamed value with hunknown | hnamed
    · by_cases hname : value = getResultAsString .unknownResult
      · exact .inl ⟨by rw [hunknown]; decide, by rw [hunknown, ← hname]⟩
      · refine .inr ⟨hunknown, fun named hnamed heq => hname ?_⟩
        rw [← hunknown, heq, (resultNamed_getResultAsString named).mpr hnamed]
    · exact .inl hnamed
  · rintro (⟨hnamed, rfl⟩ | ⟨rfl, hunnamed⟩)
    · exact (resultNamed_getResultAsString result).mpr hnamed
    · exact (getResultAsString_resultNamed value).resolve_right fun hnamed =>
        hunnamed _ hnamed.1 hnamed.2

/-- The last field with a key in a reply. -/
def lastField (fields : List SpacedField) (key : List UInt8) :
    Option SpacedField :=
  (fields.filter fun field => field.key = key).getLast?

/-- Any blanks may stand between the words, the value of a field is all behind
its first equals sign, and a later field takes the place of an earlier one: also
in the words of a message that is quoted.  A result is known by its name, where
it is one that a bridge can name. -/
theorem samReplyLine_read {topic : List UInt8} {fields : List SpacedField}
    (h : ∀ field ∈ fields, field.WellFormed) :
    (∀ key, TopicLacks topic key →
      getValue (samReplyLine topic fields) key =
        ((lastField fields key).elim (.error .runtimeError) (.ok ·.value))) ∧
    (TopicLacks topic (chars "RESULT") →
      (lastField fields (chars "RESULT") = none →
        getResult (samReplyLine topic fields) = .noResult) ∧
      ∀ field, lastField fields (chars "RESULT") = some field → ∀ result,
        getResult (samReplyLine topic fields) = result ↔
          ReadsAs field.value result) := by
  refine ⟨fun key htopic => ?_, fun htopic => ⟨fun hnone => ?_, ?_⟩⟩
  · rw [getValue, lookup_samReplyLine htopic h, lastField]
    cases (fields.filter fun field => field.key = key).getLast? <;> rfl
  · rw [lastField] at hnone
    rw [getResult, lookup_samReplyLine htopic h, hnone]
    rfl
  · intro field hlast result
    rw [lastField] at hlast
    rw [getResult, lookup_samReplyLine htopic h, hlast, Option.map_some]
    exact resultNamed_eq_iff field.value result

def namingFields : List SpacedField :=
  [⟨[32], chars "RESULT", chars "OK"⟩, ⟨[32], chars "NAME", chars "ME"⟩,
    ⟨[32, 9], chars "VALUE", chars "AB=="⟩]

theorem SpacedField.wellFormed_of_all {field : SpacedField}
    (hne : field.blanks ≠ []) (hblanks : field.blanks.all isspace = true)
    (hkey : field.key.all (fun symbol => isspace symbol = false ∧
      symbol ≠ equalsSign) = true)
    (hvalue : field.value.all (isspace · = false) = true) : field.WellFormed where
  blanks_ne_nil := hne
  blanks := List.all_eq_true.mp hblanks
  isSamField :=
    ⟨fun symbol h => of_decide_eq_true (List.all_eq_true.mp hkey symbol h),
      fun symbol h => of_decide_eq_true (List.all_eq_true.mp hvalue symbol h)⟩

theorem namingFields_wellFormed : ∀ field ∈ namingFields, field.WellFormed := by
  simp only [namingFields, List.forall_mem_cons, List.not_mem_nil, false_implies,
    implies_true, and_true]
  refine ⟨SpacedField.wellFormed_of_all ?_ ?_ ?_ ?_,
    SpacedField.wellFormed_of_all ?_ ?_ ?_ ?_,
    SpacedField.wellFormed_of_all ?_ ?_ ?_ ?_⟩ <;> decide

theorem namingFields_read :
    getValue (samReplyLine (chars "NAMING REPLY") namingFields) (chars "VALUE") =
        .ok (chars "AB==") ∧
      getResult (samReplyLine (chars "NAMING REPLY") namingFields) = .ok := by
  have hread := @samReplyLine_read (chars "NAMING REPLY") _ namingFields_wellFormed
  have htopic : words isspace (chars "NAMING REPLY") =
      [chars "NAMING", chars "REPLY"] := by decide
  refine ⟨hread.1 (chars "VALUE") ?_,
    ((hread.2 ?_).2 ⟨[32], chars "RESULT", chars "OK"⟩ ?_ .ok).mpr
      (.inl ⟨?_, rfl⟩)⟩
  · rw [TopicLacks, htopic]
    decide
  · rw [TopicLacks, htopic]
    decide
  · decide
  · decide

/-! ## The control socket -/

/-- The line, without its end, and what stays on the socket. -/
def readSamReply : List UInt8 → List UInt8 × List UInt8
  | [] => ([], [])
  | ch :: incoming =>
      if ch = newline then ([], incoming)
      else (ch :: (readSamReply incoming).1, (readSamReply incoming).2)

theorem readSamReply_line {line : List UInt8} (h : newline ∉ line)
    (rest : List UInt8) :
    readSamReply (line ++ newline :: rest) = (line, rest) := by
  induction line with
  | nil => rfl
  | cons ch line ih =>
      rw [List.mem_cons, not_or] at h
      rw [List.cons_append, readSamReply, if_neg (Ne.symm h.1), ih h.2]

/-- How `send` ends. -/
inductive SendResult where
  | sent
  | nothing
  /-- With `EBADF` or `ENOTCONN`. -/
  | closed
  /-- With another error. -/
  | failed
  deriving DecidableEq

/-- How sending a command ends, and what then arrives on the socket until
reading ends, as the bridge stands. -/
abbrev SamBridge := List UInt8 → SendResult × List UInt8

/-- `send_sam_command` over what is on the socket, and what then stays on it. -/
def exchange (bridge : SamBridge) (incoming command : List UInt8) :
    SamReply × List UInt8 :=
  let arrived := incoming ++ (bridge command).2
  match (bridge command).1 with
  | .closed => (⟨.socketClosed, []⟩, arrived)
  | .nothing => (⟨.noResult, []⟩, arrived)
  | .sent | .failed =>
      let (line, unread) := readSamReply arrived
      (⟨getResult line, line⟩, unread)

/-- One command after another on one socket, each with the bridge as it then
stands: it may answer the same command in another way. -/
def exchanges :
    List UInt8 → List (SamBridge × List UInt8) → List SamReply × List UInt8
  | incoming, [] => ([], incoming)
  | incoming, (bridge, command) :: asked =>
      let (reply, unread) := exchange bridge incoming command
      let (replies, rest) := exchanges unread asked
      (reply :: replies, rest)

def samLines (lines : List (List UInt8)) : List UInt8 :=
  lines.flatMap fun line => line ++ [newline]

def replyOfLine (line : List UInt8) : SamReply := ⟨getResult line, line⟩

section Exchanges

theorem exchange_of_sent {bridge : SamBridge} {command line rest : List UInt8}
    (hsent : (bridge command).1 = .sent) (hline : newline ∉ line)
    {incoming : List UInt8}
    (harrived : incoming ++ (bridge command).2 = line ++ newline :: rest) :
    exchange bridge incoming command = (replyOfLine line, rest) := by
  simp only [exchange, hsent, harrived, readSamReply_line hline, replyOfLine]

/-- Where the bridge has been so many lines ahead from the start, each command
gets the line of the one so many before it. -/
theorem exchanges_lines {asked : List (SamBridge × List UInt8)}
    {pending answers : List (List UInt8)}
    (hsent : ∀ entry ∈ asked, (entry.1 entry.2).1 = .sent)
    (hanswers : asked.map (fun entry => (entry.1 entry.2).2) =
      answers.map fun line => line ++ [newline])
    (hpending : ∀ line ∈ pending, newline ∉ line)
    (hlines : ∀ line ∈ answers, newline ∉ line) :
    exchanges (samLines pending) asked =
      (((pending ++ answers).take asked.length).map replyOfLine,
        samLines ((pending ++ answers).drop asked.length)) := by
  induction asked generalizing pending answers with
  | nil =>
      have hnil : answers = [] := by simpa using hanswers.symm
      simp [exchanges, hnil]
  | cons entry asked ih =>
      obtain ⟨bridge, command⟩ := entry
      cases answers with
      | nil => simp at hanswers
      | cons answer answers =>
          rw [List.map_cons, List.map_cons, List.cons.injEq] at hanswers
          rw [List.forall_mem_cons] at hsent hlines
          -- the first line that is there, and the lines pending behind it
          obtain ⟨line, behind, hfirst⟩ :
              ∃ line behind, pending ++ [answer] = line :: behind := by
            cases pending with
            | nil => exact ⟨answer, [], rfl⟩
            | cons line pending => exact ⟨line, pending ++ [answer], rfl⟩
          have hall : ∀ other ∈ line :: behind, newline ∉ other := by
            rw [← hfirst]
            intro other hother
            rcases List.mem_append.mp hother with hmem | hmem
            · exact hpending other hmem
            · rw [List.mem_singleton.mp hmem]
              exact hlines.1
          rw [List.forall_mem_cons] at hall
          have harrived : samLines pending ++ (bridge command).2 =
              line ++ newline :: samLines behind := by
            have hsame := congrArg samLines hfirst
            rw [samLines, List.flatMap_append, List.flatMap_singleton] at hsame
            rw [hanswers.1, samLines, hsame, samLines, samLines,
              List.flatMap_cons, List.append_assoc, List.singleton_append]
          have hcommands := @ih behind answers hsent.2 hanswers.2 hall.2 hlines.2
          have hqueue : pending ++ answer :: answers =
              line :: (behind ++ answers) := by
            rw [← List.cons_append, ← hfirst, List.append_assoc,
              List.singleton_append]
          rw [exchanges, exchange_of_sent hsent.1 hall.1 harrived]
          dsimp only
          rw [hcommands, hqueue]
          rfl

/-- With a line that came in before the first command, and a command that is
answered in one way and then in another. -/
theorem echo_lines :
    exchanges (chars "X\n")
        [(fun command => (.sent, command ++ [newline]), chars "A"),
          (fun _ => (.sent, chars "B\n"), chars "A"),
          (fun _ => (.sent, chars "C\n"), chars "A")] =
      ([replyOfLine (chars "X"), replyOfLine (chars "A"),
        replyOfLine (chars "B")], chars "C\n") :=
  @exchanges_lines _ [chars "X"] [chars "A", chars "B", chars "C"] (by simp) rfl
    (by decide) (by decide)

end Exchanges

end Neroshop.Network
