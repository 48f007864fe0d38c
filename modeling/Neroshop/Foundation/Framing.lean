import Mathlib.Data.List.Basic
import Mathlib.Data.List.Infix

/-!
# Incremental decoding of a byte stream

A receiver keeps a buffer.  It appends whatever arrives and then takes units
off the front until none is complete.  `Pull` is the outcome of one attempt,
`drain` the loop over one buffer, and `receive` the loop over a whole list of
arrivals.  Nothing here fixes a format: a format is a function into `Pull`.
-/

namespace Neroshop.Foundation

/-- One attempt to take a unit off the front of a buffer. -/
inductive Pull (α β : Type*) where
  | wait
  /-- A unit is removed; some units carry no output. -/
  | take (output : Option β) (rest : List α)
  /-- The attempt reads outside the buffer. -/
  | fault
  deriving DecidableEq, Repr

/-- What a receiver has done: its outputs in order and what is left over. -/
inductive Drain (α β : Type*) where
  | settled (outputs : List β) (rest : List α)
  | faulted
  | exhausted
  deriving DecidableEq, Repr

namespace Drain

variable {α β : Type*}

/-- The same result after the outputs that came before it. -/
def after (earlier : List β) : Drain α β → Drain α β
  | .settled outputs rest => .settled (earlier ++ outputs) rest
  | .faulted => .faulted
  | .exhausted => .exhausted

@[simp] theorem after_settled (earlier outputs : List β) (rest : List α) :
    (settled outputs rest).after earlier = settled (earlier ++ outputs) rest :=
  rfl

@[simp] theorem after_faulted (earlier : List β) :
    (faulted : Drain α β).after earlier = faulted := rfl

@[simp] theorem after_exhausted (earlier : List β) :
    (exhausted : Drain α β).after earlier = exhausted := rfl

@[simp] theorem after_nil (result : Drain α β) : result.after [] = result := by
  cases result <;> rfl

theorem after_append (first second : List β) (result : Drain α β) :
    result.after (first ++ second) = (result.after second).after first := by
  cases result <;> simp [after]

def Settles (result : Drain α β) : Prop :=
  ∃ outputs rest, result = .settled outputs rest

theorem settles_after {earlier : List β} {result : Drain α β} :
    (result.after earlier).Settles ↔ result.Settles := by
  cases result <;> simp [Settles]

theorem after_eq_faulted {earlier : List β} {result : Drain α β} :
    result.after earlier = faulted ↔ result = faulted := by
  cases result <;> simp

theorem after_eq_settled {earlier outputs : List β} {rest : List α}
    {result : Drain α β} (h : result.after earlier = settled outputs rest) :
    ∃ later, result = settled later rest ∧ outputs = earlier ++ later := by
  cases result with
  | settled later rest' =>
      simp only [after_settled, settled.injEq] at h
      obtain ⟨rfl, rfl⟩ := h
      exact ⟨later, rfl, rfl⟩
  | faulted => simp at h
  | exhausted => simp at h

end Drain

section Receiver

variable {α β : Type*} (pull : List α → Pull α β)

/-- The receive loop with an explicit bound on its number of rounds. -/
def drainFrom : Nat → List α → Drain α β
  | 0, _ => .exhausted
  | fuel + 1, buffer =>
      match pull buffer with
      | .wait => .settled [] buffer
      | .fault => .faulted
      | .take output rest => (drainFrom fuel rest).after output.toList

def drain (buffer : List α) : Drain α β :=
  drainFrom pull (buffer.length + 1) buffer

/-- Append each arrival to what is left over and run the loop. -/
def receive : List α → List (List α) → Drain α β
  | buffer, [] => .settled [] buffer
  | buffer, chunk :: chunks =>
      match drain pull (buffer ++ chunk) with
      | .settled outputs rest => (receive rest chunks).after outputs
      | .faulted => .faulted
      | .exhausted => .exhausted

def Progressive : Prop :=
  ∀ buffer output rest, pull buffer = .take output rest →
    rest.length < buffer.length

/-- A complete unit is the same unit whatever arrives behind it. -/
def Extensible : Prop :=
  ∀ buffer output rest more, pull buffer = .take output rest →
    pull (buffer ++ more) = .take output (rest ++ more)

variable {pull}

theorem drainFrom_succ (fuel : Nat) (buffer : List α) :
    drainFrom pull (fuel + 1) buffer =
      match pull buffer with
      | .wait => .settled [] buffer
      | .fault => .faulted
      | .take output rest => (drainFrom pull fuel rest).after output.toList :=
  rfl

private theorem drainFrom_succ_eq (progressive : Progressive pull)
    {fuel : Nat} {buffer : List α} (hfuel : buffer.length < fuel) :
    drainFrom pull (fuel + 1) buffer = drainFrom pull fuel buffer := by
  induction fuel generalizing buffer with
  | zero => omega
  | succ fuel ih =>
      rw [drainFrom_succ, drainFrom_succ]
      cases hpull : pull buffer with
      | wait => rfl
      | fault => rfl
      | take output rest =>
          have hshorter := progressive buffer output rest hpull
          simp only
          rw [ih (by omega)]

theorem drainFrom_eq_drain (progressive : Progressive pull) {fuel : Nat}
    {buffer : List α} (hfuel : buffer.length < fuel) :
    drainFrom pull fuel buffer = drain pull buffer := by
  induction fuel, hfuel using Nat.le_induction with
  | base => rfl
  | succ fuel hle ih => rw [drainFrom_succ_eq progressive hle, ih]

theorem drain_eq (progressive : Progressive pull) (buffer : List α) :
    drain pull buffer =
      match pull buffer with
      | .wait => .settled [] buffer
      | .fault => .faulted
      | .take output rest => (drain pull rest).after output.toList := by
  rw [drain, drainFrom_succ]
  cases hpull : pull buffer with
  | wait => rfl
  | fault => rfl
  | take output rest =>
      simp only
      rw [drainFrom_eq_drain progressive (progressive buffer output rest hpull)]

theorem drain_of_wait (progressive : Progressive pull) {buffer : List α}
    (h : pull buffer = .wait) : drain pull buffer = .settled [] buffer := by
  rw [drain_eq progressive, h]

theorem drain_of_fault (progressive : Progressive pull) {buffer : List α}
    (h : pull buffer = .fault) : drain pull buffer = .faulted := by
  rw [drain_eq progressive, h]

theorem drain_of_take (progressive : Progressive pull) {buffer rest : List α}
    {output : Option β} (h : pull buffer = .take output rest) :
    drain pull buffer = (drain pull rest).after output.toList := by
  rw [drain_eq progressive, h]

/--
Induction along the rounds of the loop: a buffer whose front is taken has the
property when what is left over has it.
-/
theorem drain_induction (progressive : Progressive pull)
    {motive : List α → Prop}
    (wait : ∀ buffer, pull buffer = .wait → motive buffer)
    (fault : ∀ buffer, pull buffer = .fault → motive buffer)
    (take : ∀ buffer output rest, pull buffer = .take output rest →
      motive rest → motive buffer)
    (buffer : List α) : motive buffer := by
  induction hlength : buffer.length using Nat.strong_induction_on
    generalizing buffer with
  | _ length ih =>
      cases hpull : pull buffer with
      | wait => exact wait buffer hpull
      | fault => exact fault buffer hpull
      | take output rest =>
          have hshorter := progressive buffer output rest hpull
          exact take buffer output rest hpull
            (ih rest.length (hlength ▸ hshorter) rest rfl)

/-- The loop always ends: it settles or it faults. -/
theorem drain_ne_exhausted (progressive : Progressive pull)
    (buffer : List α) : drain pull buffer ≠ .exhausted := by
  induction buffer using drain_induction progressive with
  | wait buffer h => simp [drain_of_wait progressive h]
  | fault buffer h => simp [drain_of_fault progressive h]
  | take buffer output rest h ih =>
      rw [drain_of_take progressive h]
      cases hrest : drain pull rest with
      | settled => simp
      | faulted => simp
      | exhausted => exact absurd hrest ih

theorem drain_settled_wait (progressive : Progressive pull)
    {buffer rest : List α} {outputs : List β}
    (h : drain pull buffer = .settled outputs rest) : pull rest = .wait := by
  induction buffer using drain_induction progressive generalizing outputs with
  | wait buffer hpull =>
      rw [drain_of_wait progressive hpull, Drain.settled.injEq] at h
      exact h.2 ▸ hpull
  | fault buffer hpull => simp [drain_of_fault progressive hpull] at h
  | take buffer output rest' hpull ih =>
      rw [drain_of_take progressive hpull] at h
      obtain ⟨later, hlater, -⟩ := Drain.after_eq_settled h
      exact ih hlater

/--
Bytes that arrive behind a settled buffer are decoded exactly as if the whole
stream had been there from the start.
-/
theorem drain_append (progressive : Progressive pull)
    (extensible : Extensible pull) {buffer rest : List α} {outputs : List β}
    (h : drain pull buffer = .settled outputs rest) (more : List α) :
    drain pull (buffer ++ more) = (drain pull (rest ++ more)).after outputs := by
  induction buffer using drain_induction progressive generalizing outputs with
  | wait buffer hpull =>
      rw [drain_of_wait progressive hpull, Drain.settled.injEq] at h
      obtain ⟨rfl, rfl⟩ := h
      simp
  | fault buffer hpull => simp [drain_of_fault progressive hpull] at h
  | take buffer output rest' hpull ih =>
      rw [drain_of_take progressive hpull] at h
      obtain ⟨later, hlater, rfl⟩ := Drain.after_eq_settled h
      rw [drain_of_take progressive
        (extensible buffer output rest' more hpull), ih hlater,
        Drain.after_append]

theorem receive_cons (buffer chunk : List α) (chunks : List (List α)) :
    receive pull buffer (chunk :: chunks) =
      match drain pull (buffer ++ chunk) with
      | .settled outputs rest => (receive pull rest chunks).after outputs
      | .faulted => .faulted
      | .exhausted => .exhausted := rfl

theorem receive_ne_exhausted (progressive : Progressive pull)
    (buffer : List α) (chunks : List (List α)) :
    receive pull buffer chunks ≠ .exhausted := by
  induction chunks generalizing buffer with
  | nil => simp [receive]
  | cons chunk chunks ih =>
      rw [receive_cons]
      cases hdrain : drain pull (buffer ++ chunk) with
      | settled outputs rest =>
          cases hrest : receive pull rest chunks with
          | settled => simp [hrest]
          | faulted => simp [hrest]
          | exhausted => exact absurd hrest (ih rest)
      | faulted => simp
      | exhausted => exact absurd hdrain (drain_ne_exhausted progressive _)

end Receiver

/-! ## Streams of encoded units -/

section Encoded

variable {α β γ : Type*} {pull : List α → Pull α β}

/--
`encode` writes units that `pull` reads back: a complete unit is taken whole,
and every proper prefix of one makes the receiver wait.
-/
structure Encodes (pull : List α → Pull α β) (encode : γ → List α)
    (output : γ → β) (unit : γ) : Prop where
  complete : ∀ more,
    pull (encode unit ++ more) = .take (some (output unit)) more
  incomplete : ∀ front back, encode unit = front ++ back → back ≠ [] →
    pull front = .wait

variable {encode : γ → List α} {output : γ → β}

/--
A loop over the first part of an encoded stream outputs the units that are
complete and leaves the rest of the stream to decode.
-/
theorem drain_encoded (progressive : Progressive pull)
    (empty : pull [] = .wait) {units : List γ}
    (hunits : ∀ unit ∈ units, Encodes pull encode output unit)
    {buffer more : List α} (hstream : buffer ++ more = units.flatMap encode) :
    ∃ done left rest, units = done ++ left ∧
      drain pull buffer = .settled (done.map output) rest ∧
      rest ++ more = left.flatMap encode := by
  induction units generalizing buffer with
  | nil =>
      obtain ⟨rfl, rfl⟩ := List.append_eq_nil_iff.mp hstream
      exact ⟨[], [], [], rfl, drain_of_wait progressive empty, rfl⟩
  | cons unit units ih =>
      have hunit := hunits unit (List.mem_cons_self ..)
      rw [List.flatMap_cons, List.append_eq_append_iff] at hstream
      by_cases hwhole : ∃ extra, buffer = encode unit ++ extra
      · obtain ⟨extra, rfl⟩ := hwhole
        have hrest : extra ++ more = units.flatMap encode := by
          rcases hstream with ⟨gap, h1, h2⟩ | ⟨gap, h1, h2⟩
          · have hlen := congrArg List.length h1
            simp only [List.length_append] at hlen
            have hextra : extra = [] := List.length_eq_zero_iff.mp (by omega)
            have hgap : gap = [] := List.length_eq_zero_iff.mp (by omega)
            simpa [hextra, hgap] using h2
          · rw [List.append_cancel_left h1, h2]
        obtain ⟨done, left, rest, rfl, hdrain, hleft⟩ :=
          ih (fun u hu => hunits u (List.mem_cons_of_mem _ hu)) hrest
        refine ⟨unit :: done, left, rest, rfl, ?_, hleft⟩
        rw [drain_of_take progressive (hunit.complete extra), hdrain]
        rfl
      · refine ⟨[], unit :: units, buffer, rfl, ?_, ?_⟩
        · rcases hstream with ⟨gap, h1, h2⟩ | ⟨gap, h1, h2⟩
          · refine drain_of_wait progressive
              (hunit.incomplete buffer gap h1 ?_)
            rintro rfl
            exact hwhole ⟨[], by simpa using h1.symm⟩
          · exact absurd ⟨gap, h1⟩ hwhole
        · rw [List.flatMap_cons]
          exact List.append_eq_append_iff.mpr hstream

/-- Round trip over any cutting of the stream into arrivals. -/
theorem receive_encoded (progressive : Progressive pull)
    (empty : pull [] = .wait) {units : List γ}
    (hunits : ∀ unit ∈ units, Encodes pull encode output unit)
    {buffer : List α} (hbuffer : pull buffer = .wait)
    {chunks : List (List α)}
    (hstream : buffer ++ chunks.flatten = units.flatMap encode) :
    receive pull buffer chunks = .settled (units.map output) [] := by
  induction chunks generalizing units buffer with
  | nil =>
      rw [List.flatten_nil, List.append_nil] at hstream
      cases units with
      | nil =>
          simp only [List.flatMap_nil] at hstream
          simp [receive, hstream]
      | cons unit units =>
          have hunit := hunits unit (List.mem_cons_self ..)
          rw [hstream, List.flatMap_cons, hunit.complete] at hbuffer
          simp at hbuffer
  | cons chunk chunks ih =>
      rw [List.flatten_cons, ← List.append_assoc] at hstream
      obtain ⟨done, left, rest, rfl, hdrain, hleft⟩ :=
        drain_encoded progressive empty hunits hstream
      have hrest := ih
        (fun unit hmem => hunits unit (List.mem_append_right _ hmem))
        (drain_settled_wait progressive hdrain) hleft
      rw [receive_cons, hdrain]
      simp [hrest]

end Encoded

end Neroshop.Foundation
