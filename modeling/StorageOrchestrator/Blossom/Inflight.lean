import StorageOrchestrator.Lib.Transition

/-!
# Bytes of uploads in flight

`uploadGate` decides from the headers, after several awaits, whether an upload
is admitted.  It then adds the declared length to `inflightUploadBytes` and
listens for the end of the response, which takes the length off again once.
Connections close at any moment; a listener attached after an event has fired
is not called, and a closed connection emits nothing more.
-/

namespace StorageOrchestrator.Blossom.Inflight

open Lib.Transition List

inductive Response where
  | open
  | finished
  | closed
deriving DecidableEq, Repr

/-- Where the gate stands with a request. -/
inductive Phase where
  | checking
  | refused
  | admitted (released : Bool)
deriving DecidableEq, Repr

structure Request where
  length : Nat
  phase : Phase
  response : Response
deriving DecidableEq, Repr

structure Gate where
  inflightUploadBytes : Int
  requests : List Request
deriving DecidableEq, Repr

inductive Event where
  | arrive (length : Nat)
  | refuse (number : Nat)
  | decide (number : Nat)
  | finish (number : Nat)
  | close (number : Nat)
deriving DecidableEq, Repr

/-- A request in a new state, with the bytes it adds. -/
def Gate.moved (gate : Gate) (number : Nat) (request : Request) (bytes : Int) : Gate :=
  { inflightUploadBytes := gate.inflightUploadBytes + bytes
    requests := gate.requests.set number request }

/-- The listeners of an admitted request call `release`, which counts once. -/
def Gate.emit (gate : Gate) (number : Nat) (request : Request) (response : Response) : Gate :=
  match request.phase with
  | .admitted false =>
    gate.moved number ⟨request.length, .admitted true, response⟩ (-request.length)
  | phase => gate.moved number ⟨request.length, phase, response⟩ 0

/-- The last part of the gate, which runs without an await. -/
def Gate.decide (cap : Nat) (gate : Gate) (number : Nat) (request : Request) : Gate :=
  if request.length = 0 ∨ (cap : Int) < gate.inflightUploadBytes + request.length then
    gate.moved number { request with phase := .refused } 0
  else gate.moved number { request with phase := .admitted false } request.length

/-- One event of the proxy or of a connection. -/
def step (cap : Nat) (gate : Gate) : Event → Option Gate
  | .arrive length =>
    some { gate with requests := gate.requests ++ [⟨length, .checking, .open⟩] }
  | .refuse number =>
    match gate.requests[number]? with
    | some ⟨length, .checking, response⟩ =>
      some (gate.moved number ⟨length, .refused, response⟩ 0)
    | _ => none
  | .decide number =>
    match gate.requests[number]? with
    | some ⟨length, .checking, response⟩ =>
      some (gate.decide cap number ⟨length, .checking, response⟩)
    | _ => none
  | .finish number =>
    match gate.requests[number]? with
    | some ⟨_, .checking, _⟩ => none
    | some ⟨length, phase, .open⟩ => some (gate.emit number ⟨length, phase, .open⟩ .finished)
    | _ => none
  | .close number =>
    match gate.requests[number]? with
    | some ⟨_, _, .closed⟩ | none => none
    | some request => some (gate.emit number request .closed)

/-! ## What is counted -/

/-- An admitted upload whose response has neither finished nor closed. -/
def Request.isOpen (request : Request) : Bool :=
  (request.phase matches .admitted _) && request.response = .open

/-- An upload that was admitted after its connection had closed. -/
def Request.isStranded (request : Request) : Bool :=
  request.phase = .admitted false ∧ request.response = .closed

def bytesOf (counted : Request → Bool) (requests : List Request) : Int :=
  (requests.map fun request => if counted request then (request.length : Int) else 0).sum

/-- The event admits an upload whose connection has closed. -/
def strands (cap : Nat) (gate : Gate) : Event → Bool
  | .decide number => gate.requests[number]?.any fun request =>
    request.response = .closed ∧ 0 < request.length ∧
      gate.inflightUploadBytes + request.length ≤ cap
  | _ => false

/-- The accounting of the uploads. -/
structure Accounted (cap : Nat) (gate : Gate) : Prop where
  bytes : gate.inflightUploadBytes = bytesOf Request.isOpen gate.requests
  capped : gate.inflightUploadBytes ≤ cap
  idle : (∀ request ∈ gate.requests, request.isOpen = false) → gate.inflightUploadBytes = 0

/-- No request of the kinds that no event leads to. -/
def Request.Possible (request : Request) : Prop :=
  match request.phase with
  | .checking => request.response ≠ .finished
  | .refused => True
  | .admitted false => request.response ≠ .finished ∧ 0 < request.length
  | .admitted true => request.response ≠ .open

def Request.isCounted (request : Request) : Bool := request.phase = .admitted false

structure Kept (cap : Nat) (gate : Gate) : Prop where
  bytes : gate.inflightUploadBytes = bytesOf Request.isCounted gate.requests
  capped : gate.inflightUploadBytes ≤ cap
  possible : ∀ request ∈ gate.requests, request.Possible

theorem bytesOf_set (sums : Request → Bool) (reqs : List Request) (n : Nat)
    (req : Request) (found : reqs[n]? = some old) :
    bytesOf sums (reqs.set n req) = bytesOf sums reqs +
      ((if sums req then (req.length : Int) else 0) -
      if sums old then (old.length : Int) else 0) := by
  induction reqs generalizing n with
  | nil => cases found
  | cons first rest ih =>
    cases n with
    | zero =>
      cases found
      simp only [bytesOf, set_cons_zero, map_cons, sum_cons]
      omega
    | succ n =>
      have later := ih n found
      simp only [bytesOf, set_cons_succ, map_cons, sum_cons] at later ⊢
      omega

/-- A request that moves changes the sum by what it counts for. -/
theorem Kept.moved {gate : Gate} (kept : Kept cap gate)
    (found : gate.requests[number]? = some old) (req : Request) (bytes : Int)
    (possible : req.Possible) (room : gate.inflightUploadBytes + bytes ≤ cap)
    (counts : bytes = (if req.isCounted then (req.length : Int) else 0) -
      if old.isCounted then (old.length : Int) else 0) :
    Kept cap (gate.moved number req bytes) where
  bytes := by rw [Gate.moved, bytesOf_set _ _ _ _ found, ← counts, kept.bytes]
  capped := room
  possible := by
    intro other mem
    rcases mem_or_eq_of_mem_set mem with pre | rfl
    · exact kept.possible other pre
    · exact possible

theorem Kept.emit {gate : Gate} (kept : Kept cap gate) {req : Request} {res : Response}
    (found : gate.requests[number]? = some req) (emitted : res ≠ .open)
    (later : req.phase = .checking → res = .closed) :
    Kept cap (gate.emit number req res) := by
  obtain ⟨length, phase, pre⟩ := req
  have capped := kept.capped
  have may := kept.possible _ (mem_of_getElem? found)
  match phase with
  | .admitted false =>
    exact kept.moved found _ _ emitted (by simp only; omega) (by simp [Request.isCounted])
  | .checking =>
    exact kept.moved found _ _ (by simp [Request.Possible, later rfl]) (by simpa using capped)
      (by simp [Request.isCounted])
  | .refused =>
    exact kept.moved found _ _ trivial (by simpa using capped) (by simp [Request.isCounted])
  | .admitted true =>
    exact kept.moved found _ _ emitted (by simpa using capped) (by simp [Request.isCounted])

theorem Kept.decide {gate : Gate} {length : Nat} (kept : Kept cap gate)
    (found : gate.requests[number]? = some ⟨length, .checking, res⟩) :
    Kept cap (gate.decide cap number ⟨length, .checking, res⟩) := by
  have capped := kept.capped
  have may := kept.possible _ (mem_of_getElem? found)
  rw [Gate.decide]
  split
  · exact kept.moved found _ _ trivial (by simpa using capped) (by simp [Request.isCounted])
  · rename_i room
    rw [not_or] at room
    refine kept.moved found _ _ ⟨may, ?_⟩ (not_lt.mp room.2) (by simp [Request.isCounted])
    exact Nat.pos_of_ne_zero room.1

theorem Kept.step {gate next : Gate} (kept : Kept cap gate)
    (ran : step cap gate ev = some next) : Kept cap next := by
  cases ev with
  | arrive length =>
    cases ran
    refine ⟨?_, kept.capped, ?_⟩
    · simp [bytesOf, Request.isCounted, kept.bytes]
    · intro req mem
      rcases mem_append.mp mem with pre | new
      · exact kept.possible req pre
      · cases mem_singleton.mp new
        simp [Request.Possible]
  | refuse n =>
    simp only [Inflight.step] at ran
    split at ran
    · rename_i found
      cases ran
      exact kept.moved found _ _ trivial (by simpa using kept.capped) (by simp [Request.isCounted])
    · cases ran
  | decide n =>
    simp only [Inflight.step] at ran
    split at ran
    · rename_i found
      cases ran
      exact kept.decide found
    · cases ran
  | finish n =>
    simp only [Inflight.step] at ran
    split at ran
    · cases ran
    · rename_i ok found
      cases ran
      exact kept.emit found nofun fun checking => by simp_all
    · cases ran
  | close n =>
    simp only [Inflight.step] at ran
    split at ran
    · cases ran
    · cases ran
    · rename_i found
      cases ran
      exact kept.emit found nofun fun _ => rfl

/-- No upload is under way. -/
def Gate.idle : Gate := ⟨0, []⟩

theorem kept_of_replay (cap : Nat) (evs : List Event)
    (ran : replay (step cap) .idle evs = some gate) : Kept cap gate := by
  have run : GuardedRun (step cap) (fun _ _ => True) .idle evs gate :=
    .of_replay (fun _ _ => trivial) ran
  refine run.invariant (fun _ _ _ kept _ taken => kept.step taken) ⟨rfl, ?_, nofun⟩
  exact Int.natCast_nonneg cap

/-- The counted uploads are the open ones and the stranded ones. -/
theorem bytesOf_isCounted (requests : List Request) (may : ∀ req ∈ requests, req.Possible) :
    bytesOf Request.isCounted requests =
      bytesOf Request.isOpen requests + bytesOf Request.isStranded requests := by
  induction requests with
  | nil => rfl
  | cons req rest ih =>
    have later := ih fun other mem => may other (mem_cons_of_mem _ mem)
    have first := may req mem_cons_self
    obtain ⟨length, phase, res⟩ := req
    simp only [bytesOf, map_cons, sum_cons] at later ⊢
    rcases phase with _ | _ | _ | _ <;> cases res <;>
      simp_all [Request.Possible, Request.isCounted, Request.isOpen, Request.isStranded] <;> omega

theorem bytesOf_eq_zero {sums : Request → Bool} {reqs : List Request}
    (none : ∀ req ∈ reqs, sums req = false) : bytesOf sums reqs = 0 := by
  refine sum_eq_zero fun bytes mem => ?_
  obtain ⟨req, isOne, rfl⟩ := mem_map.mp mem
  rw [if_neg (by simp [none req isOne])]

theorem bytesOf_pos {sums : Request → Bool} {requests : List Request}
    (mem : req ∈ requests) (isCounted : sums req = true)
    (pos : 0 < req.length) : 0 < bytesOf sums requests := by
  obtain ⟨n, found⟩ := mem_iff_getElem?.mp mem
  have without := bytesOf_set sums requests n { req with length := 0 } found
  have rest : 0 ≤ bytesOf sums (requests.set n { req with length := 0 }) := by
    refine sum_nonneg fun bytes mem => ?_
    obtain ⟨req, -, rfl⟩ := mem_map.mp mem
    split <;> omega
  simp only [isCounted, if_true] at without
  split at without <;> omega

/-! ## How uploads are stranded -/

/-- No upload was admitted after its connection had closed. -/
def Gate.Attended (gate : Gate) : Prop := ∀ request ∈ gate.requests, request.isStranded = false

section

variable {gate next : Gate} {req old : Request}

theorem attended_moved (found : gate.requests[number]? = some old)
    (was : old.isStranded = false) (bytes : Int) :
    (gate.moved number req bytes).Attended ↔ gate.Attended ∧ req.isStranded = false := by
  constructor
  · intro attended
    refine ⟨fun other mem => ?_, attended req (mem_set (List.getElem?_eq_some_iff.mp found).1 _)⟩
    obtain ⟨index, at_⟩ := mem_iff_getElem?.mp mem
    by_cases same : number = index
    · cases same
      cases found.symm.trans at_
      exact was
    · exact attended other (mem_of_getElem? ((getElem?_set_ne same).trans at_))
  · rintro ⟨attended, new⟩ other mem
    rcases mem_or_eq_of_mem_set mem with pre | rfl
    · exact attended other pre
    · exact new

theorem attended_emit (found : gate.requests[number]? = some req)
    (was : req.isStranded = false) (res : Response) :
    (gate.emit number req res).Attended ↔ gate.Attended := by
  obtain ⟨length, phase, response⟩ := req
  rcases phase with _ | _ | _ | _ <;>
    simp [Gate.emit, attended_moved found was, Request.isStranded]

/-- A step strands an upload exactly when it admits one of a closed connection. -/
theorem attended_step (ran : step cap gate ev = some next) :
    next.Attended ↔ gate.Attended ∧ strands cap gate ev = false := by
  cases ev with
  | arrive length =>
    cases ran
    simp [Gate.Attended, Request.isStranded, strands, or_imp, forall_and]
  | refuse n =>
    simp only [step] at ran
    split at ran
    · rename_i found
      cases ran
      simp [attended_moved found, Request.isStranded, strands]
    · cases ran
  | decide n =>
    simp only [step] at ran
    split at ran
    · rename_i length response found
      cases ran
      simp only [Gate.decide, strands, found, Option.any_some]
      split
      · rw [attended_moved found rfl]
        simp [Request.isStranded]
        omega
      · rename_i room
        rw [not_or, ← ne_eq, ← Nat.pos_iff_ne_zero, not_lt] at room
        rw [attended_moved found rfl]
        simp [Request.isStranded, room]
    · cases ran
  | finish n =>
    simp only [step] at ran
    split at ran
    · cases ran
    · rename_i found
      cases ran
      simp [attended_emit found, Request.isStranded, strands]
    · cases ran
  | close n =>
    simp only [step] at ran
    split at ran
    · cases ran
    · cases ran
    · rename_i request isOpen found
      cases ran
      have was : request.isStranded = false := by
        obtain ⟨length, phase, response⟩ := request
        cases response <;> simp_all [Request.isStranded]
      simp [attended_emit found was, strands]

theorem attended_replay (ran : replay (step cap) gate evs = some next) :
    next.Attended ↔ gate.Attended ∧
      GuardedRun (step cap) (fun gate ev => strands cap gate ev = false) gate evs next := by
  induction evs generalizing gate with
  | nil =>
    cases ran
    exact (and_iff_left (.done _)).symm
  | cons ev evs ih =>
    simp only [replay] at ran
    split at ran
    · cases ran
    · rename_i mid taken
      rw [ih ran, attended_step taken]
      constructor
      · rintro ⟨⟨was, admitted⟩, rest⟩
        exact ⟨was, .move admitted taken rest⟩
      · rintro ⟨was, _ | ⟨admitted, again, rest⟩⟩
        cases taken.symm.trans again
        exact ⟨⟨was, admitted⟩, rest⟩

end

/--
Whatever requests arrive and connections close, the bytes in flight are those
of the open uploads exactly when no step admits an upload whose connection has
closed.
-/
theorem accounted_iff (cap : Nat) (events : List Event) (gate : Gate)
    (replayed : replay (step cap) .idle events = some gate) :
    Accounted cap gate ↔
      GuardedRun (step cap) (fun gate event => strands cap gate event = false) .idle events
        gate := by
  have attended := attended_replay replayed
  rw [and_iff_right nofun] at attended
  rw [← attended]
  have kept := kept_of_replay cap events replayed
  have bytes := kept.bytes.trans (bytesOf_isCounted gate.requests kept.possible)
  constructor
  · intro known request mem
    by_contra stranded
    rw [Bool.not_eq_false] at stranded
    have may := kept.possible request mem
    have ok : request.phase = .admitted false := by
      simp [Request.isStranded] at stranded
      exact stranded.1
    rw [Request.Possible, ok] at may
    have lost := bytesOf_pos mem stranded may.2
    have := known.bytes
    omega
  · intro none
    rw [bytesOf_eq_zero none, add_zero] at bytes
    exact ⟨bytes, kept.capped, fun noneOpen => bytes.trans (bytesOf_eq_zero noneOpen)⟩

/-- One of two uploads ends; a third connection closes before it is refused. -/
theorem accounted_answered : Accounted 10 ⟨4,
    [⟨4, .admitted false, .open⟩, ⟨6, .admitted true, .finished⟩, ⟨3, .refused, .closed⟩]⟩ :=
  (accounted_iff 10 [.arrive 4, .arrive 6, .decide 1, .arrive 3, .decide 0, .close 2, .decide 2,
      .finish 1] _ rfl).mpr
    (.of_guardedReplay rfl)

/-- The connection closes while the gate waits for the account. -/
theorem stranded_upload : replay (step 10) .idle [.arrive 4, .close 0, .decide 0] =
        some ⟨4, [⟨4, .admitted false, .closed⟩]⟩ ∧
      ¬ Accounted 10 ⟨4, [⟨4, .admitted false, .closed⟩]⟩ :=
  ⟨rfl, fun known => absurd known.bytes (by decide)⟩

end StorageOrchestrator.Blossom.Inflight
