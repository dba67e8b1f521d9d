import StorageOrchestrator.Blossom.Proxy

/-!
# Placing a blob on providers

`uploadBlob` as one function: it tries the provider that the account and the
time select, drops it from the candidates whatever the answer, and goes on
until enough providers hold the blob or none is left.  The requests of the
proxy take the same loop one provider at a time (`replay_uploadBlob`).
-/

namespace StorageOrchestrator.Blossom.Upload

open Blossom.Proxy Lib.Placement Lib.Transition List

variable {server : String} {remaining : List String}

/-- The lists of the loop, and the copies on the providers. -/
structure Attempt where
  stored : List String
  tried : List String
  held : List (String × String)
deriving DecidableEq, Repr

theorem mem_of_selectOwner (pick : selectOwner npub remaining now = some server) :
    server ∈ remaining :=
  mem_of_pickName pick

/-- The lists after the request to one provider. -/
def Attempt.next (hash : String) (fails : String → Bool) (server : String)
    (attempt : Attempt) : Attempt :=
  if fails server then { attempt with tried := attempt.tried ++ [server] }
  else
    { attempt with
      stored := attempt.stored ++ [server]
      held := attempt.held ++ [(server, hash)] }

/-- The loop of `uploadBlob`; `fails` is the set of failing providers. -/
def uploadLoop (replicaCount : Nat) (npub hash : String) (now : Nat)
    (fails : String → Bool) (remaining : List String) (attempt : Attempt) :
    Attempt :=
  if remaining ≠ [] ∧ attempt.stored.length < replicaCount then
    match picked : selectOwner npub remaining now with
    | none => attempt
    | some server =>
      have smaller : (remaining.erase server).length < remaining.length := by
        have member := mem_of_selectOwner picked
        have positive := List.length_pos_of_mem member
        rw [List.length_erase_of_mem member]
        omega
      uploadLoop replicaCount npub hash now fails (remaining.erase server)
        (attempt.next hash fails server)
  else attempt
termination_by remaining.length

/-- What `uploadBlob` answers, and the copies it leaves. -/
structure Outcome where
  result : Except String (List String)
  held : List (String × String)

/-- The text of the error when every provider failed. -/
def uploadFailed (tried : List String) : String :=
  "Failed to upload blob to any storage provider (tried: " ++
    ", ".intercalate tried ++ ")"

def uploadBlob (replicaCount : Nat) (npub hash : String) (now : Nat)
    (fails : String → Bool) (roster : List String) (held : List (String × String)) : Outcome :=
  if roster = [] then
    { result := .error "No storage providers available"
      held := held }
  else
    let attempt := uploadLoop replicaCount npub hash now fails roster
      { stored := [], tried := [], held := held }
    { result :=
        if attempt.stored = [] then .error (uploadFailed attempt.tried)
        else .ok attempt.stored
      held := attempt.held }

/-! ## The loop -/

section

variable {hash : String} {fails : String → Bool}

/-- The providers that accept the blob. -/
def accepting (fails : String → Bool) (roster : List String) : Nat :=
  roster.countP fun server => !fails server

theorem selectOwner_ne_none (here : remaining ≠ []) : selectOwner npub remaining now ≠ none :=
  pickName_ne_none here _

theorem accepting_erase (fails : String → Bool) (mem : server ∈ remaining) :
    accepting fails remaining = accepting fails (remaining.erase server) +
      if fails server then 0 else 1 := by
  rw [accepting, (perm_cons_erase mem).countP_eq, countP_cons]
  cases fails server <;> rfl

theorem uploadLoop_stop {attempt : Attempt}
    (stops : ¬ (remaining ≠ [] ∧ attempt.stored.length < replicaCount)) :
    uploadLoop replicaCount npub hash now fails remaining attempt = attempt := by
  rw [uploadLoop, if_neg stops]

theorem uploadLoop_step {call : Attempt}
    (going : remaining ≠ [] ∧ call.stored.length < replicaCount)
    (pick : selectOwner npub remaining now = some server) :
    uploadLoop replicaCount npub hash now fails remaining call =
      uploadLoop replicaCount npub hash now fails (remaining.erase server)
      (call.next hash fails server) := by
  rw [uploadLoop, if_pos going]
  split
  · rename_i nobody
    cases pick.symm.trans nobody
  · rename_i other chosen
    cases pick.symm.trans chosen
    rfl

/-- What the loop adds to its lists and leaves on the providers. -/
theorem uploadLoop_adds (replicaCount : Nat) (npub hash : String) (now : Nat)
    (fails : String → Bool) (remaining : List String) (call : Attempt)
    (distinct : remaining.Nodup) :
    ∃ added missed, uploadLoop replicaCount npub hash now fails remaining call =
      { stored := call.stored ++ added
        tried := call.tried ++ missed
        held := call.held ++ added.map fun server => (server, hash) } ∧
      added.Nodup ∧
      (∀ server ∈ added, server ∈ remaining ∧ fails server = false) ∧
      added.length = min (replicaCount - call.stored.length) (accepting fails remaining) := by
  fun_induction uploadLoop replicaCount npub hash now fails remaining call with
  | case1 remaining call going pick =>
    exact absurd pick (selectOwner_ne_none going.1)
  | case2 remaining call going server pick less ih =>
    have mem := mem_of_selectOwner pick
    have fewer := accepting_erase fails mem
    obtain ⟨added, missed, res, nodup, ok, length⟩ := ih (distinct.erase server)
    have inside : ∀ other ∈ added, other ∈ remaining ∧ fails other = false := fun other isAdded =>
        ⟨mem_of_mem_erase (ok other isAdded).1, (ok other isAdded).2⟩
    rw [res]
    cases fail : fails server with
    | true =>
      simp only [Attempt.next, fail, if_true] at length fewer ⊢
      refine ⟨added, server :: missed, by simp, nodup, inside, ?_⟩
      omega
    | false =>
      simp only [Attempt.next, fail, Bool.false_eq_true, if_false,
        length_append, length_singleton] at length fewer ⊢
      refine ⟨server :: added, missed, by simp, ?_, ?_, ?_⟩
      · refine nodup_cons.mpr ⟨?_, nodup⟩
        intro again
        exact distinct.not_mem_erase (ok server again).1
      · intro other isAdded
        rcases mem_cons.mp isAdded with rfl | isAdded
        · exact ⟨mem, fail⟩
        · exact inside other isAdded
      · rw [length_cons]
        omega
  | case3 remaining call stops =>
    refine ⟨[], [], by simp, nodup_nil, nofun, ?_⟩
    by_cases empty : remaining = []
    · simp [empty, accepting]
    · have many : replicaCount ≤ call.stored.length := by
        by_contra few
        exact stops ⟨empty, by omega⟩
      simp [Nat.sub_eq_zero_of_le many]

/-- The loop does not depend on the order of the candidates. -/
theorem uploadLoop_perm (eq : remaining.Perm rest) (attempt : Attempt) :
    uploadLoop replicaCount npub hash now fails remaining attempt =
      uploadLoop replicaCount npub hash now fails rest attempt := by
  fun_induction uploadLoop replicaCount npub hash now fails remaining attempt generalizing rest with
  | case1 remaining attempt going pick =>
    exact absurd pick (selectOwner_ne_none going.1)
  | case2 remaining attempt going server pick less ih =>
    have going' : rest ≠ [] ∧ attempt.stored.length < replicaCount := by
      refine ⟨?_, going.2⟩
      rintro rfl
      exact going.1 eq.eq_nil
    have picked' : selectOwner npub rest now = some server := by
      rw [← pick, selectOwner, selectOwner, pickName_perm eq]
    rw [uploadLoop_step going' picked']
    exact ih (eq.erase server)
  | case3 remaining attempt stops =>
    have stops' : ¬ (rest ≠ [] ∧ attempt.stored.length < replicaCount) := by
      rintro ⟨here, few⟩
      refine stops ⟨?_, few⟩
      rintro rfl
      exact here eq.symm.eq_nil
    rw [uploadLoop_stop stops']

end

/-! ## The whole upload -/

/--
An upload throws exactly when no provider of the roster accepts, and then
stores nothing.  Otherwise its replicas are distinct accepting providers of
the roster, as many as wanted or as there are, and exactly those that the
upload stored the blob on.  The order of the roster does not matter.
-/
theorem uploadBlob_places (replicaCount : Nat) (npub hash : String)
    (now : Nat) (fails : String → Bool) (roster : List String)
    (held : List (String × String)) (distinct : roster.Nodup)
    (wanted : 1 ≤ replicaCount) :
    let outcome := uploadBlob replicaCount npub hash now fails roster held
    ((∃ msg, outcome.result = .error msg) ↔ ∀ server ∈ roster, fails server = true) ∧
      (∀ msg, outcome.result = .error msg → outcome.held = held) ∧
      (∀ copies, outcome.result = .ok copies → copies.Nodup ∧
        (∀ server ∈ copies, server ∈ roster ∧ fails server = false) ∧
        copies.length = min replicaCount (accepting fails roster) ∧
        outcome.held = held ++ copies.map fun server => (server, hash)) ∧
      ∀ rest, roster.Perm rest → uploadBlob replicaCount npub hash now fails rest held =
          outcome := by
  have order : ∀ rest, roster.Perm rest → uploadBlob replicaCount npub hash now fails rest held =
        uploadBlob replicaCount npub hash now fails roster held := by
    intro rest eq
    have empty : rest = [] ↔ roster = [] := by
      rw [← length_eq_zero_iff, ← length_eq_zero_iff, eq.length_eq]
    simp [uploadBlob, empty, uploadLoop_perm eq]
  obtain ⟨added, missed, result, nodup, ok, length⟩ :=
    uploadLoop_adds replicaCount npub hash now fails roster
      { stored := [], tried := [], held := held } distinct
  have nobody : added = [] ↔ ∀ server ∈ roster, fails server = true := by
    rw [← length_eq_zero_iff, length]
    have none : accepting fails roster = 0 ↔ ∀ server ∈ roster, fails server = true := by
      simp [accepting, countP_eq_zero]
    rw [← none, length_nil]
    omega
  by_cases empty : roster = []
  · subst empty
    refine ⟨?_, ?_, ?_, order⟩
    · simp [uploadBlob]
    · simp [uploadBlob]
    · simp [uploadBlob]
  · have whole : uploadBlob replicaCount npub hash now fails roster held =
        { result :=
            if added = [] then .error (uploadFailed missed) else .ok added
          held := held ++ added.map fun server => (server, hash) } := by
      simp [uploadBlob, empty, result]
    rw [whole] at order ⊢
    refine ⟨?_, ?_, ?_, order⟩
    · rw [← nobody]
      split
      · rename_i none
        simp [none]
      · rename_i some
        simp [some]
    · intro msg fail
      split at fail
      · rename_i none
        simp [none]
      · cases fail
    · intro copies succeeded
      split at succeeded
      · cases succeeded
      · cases succeeded
        exact ⟨nodup, ok, length, rfl⟩

/-- One of three providers is down, and two copies are wanted. -/
theorem uploadBlob_places_two : ∃ replicas,
      (uploadBlob 2 "alice" "h" 0 (fun server => server == "p3")
        ["p1", "p2", "p3"] []).result = .ok replicas ∧
      replicas.length = 2 ∧ "p3" ∉ replicas := by
  have put := uploadBlob_places 2 "alice" "h" 0
    (fun server => server == "p3") ["p1", "p2", "p3"] [] (by decide)
    (by decide)
  obtain ⟨throws, -, places, -⟩ := put
  cases ans : (uploadBlob 2 "alice" "h" 0 (fun server => server == "p3")
      ["p1", "p2", "p3"] []).result with
  | error msg =>
    have all := throws.mp ⟨msg, ans⟩
    exact absurd (all "p1" (by decide)) (by decide)
  | ok replicas =>
    obtain ⟨-, fits, length, -⟩ := places replicas ans
    refine ⟨replicas, rfl, length, ?_⟩
    intro mem
    exact absurd (fits "p3" mem).2 (by decide)

/-! ## The loop as the proxy takes it -/

section

variable (replicaCount : Nat) (fails : String → Bool) (upload : Upload)

/-- How the request to a provider comes back. -/
def answerOf (fails : String → Bool) (server : String) : Delivery :=
  if fails server then .notExecuted else .answered

/-- Where an upload stands once the loop is over. -/
def afterLoop (stored : List String) : UploadPhase :=
  if stored = [] then .ended else .creating true stored

/-- The cluster with other copies and the upload in another phase. -/
def withUpload (cluster : Cluster) (index : Nat) (upload : Upload)
    (held : List (String × String)) (phase : UploadPhase) : Cluster :=
  { cluster with
    held := held
    tasks := cluster.tasks.set index (.upload upload phase) }

/-- One request of the loop does what one round of `uploadLoop` does. -/
theorem step_storing {cluster : Cluster} (now : Nat) {call : Attempt}
    (found : cluster.tasks[index]? = some (.upload upload (.storing remaining call.stored)))
    (bytes : cluster.held = call.held)
    (pick : selectOwner upload.npub remaining upload.startedAt = some server) :
    step replicaCount cluster (.advance index (answerOf fails server) now) =
      some (withUpload cluster index upload (call.next upload.hash fails server).held
      (storingNext replicaCount (remaining.erase server)
      (call.next upload.hash fails server).stored)) := by
  simp only [step, found, taskStep, uploadStep, storeStep, pick, Option.map_some]
  cases fail : fails server with
  | true | false =>
    simp [answerOf, Attempt.next, fail, withUpload, Cluster.settle, Delivery.executed, bytes]

/-- The requests of the loop end where `uploadLoop` does. -/
theorem replay_uploadLoop (now i : Nat) (remaining : List String)
    (call : Attempt) (cluster : Cluster) (found : cluster.tasks[i]? =
      some (.upload upload (.storing remaining call.stored)))
    (bytes : cluster.held = call.held)
    (going : remaining ≠ [] ∧ call.stored.length < replicaCount) :
    ∃ sends : List Delivery, replay (step replicaCount) cluster
      (sends.map fun sent => .advance i sent now) =
      some (withUpload cluster i upload
      (uploadLoop replicaCount upload.npub upload.hash upload.startedAt
      fails remaining call).held
      (afterLoop (uploadLoop replicaCount upload.npub upload.hash
      upload.startedAt fails remaining call).stored)) := by
  fun_induction uploadLoop replicaCount upload.npub upload.hash
    upload.startedAt fails remaining call generalizing cluster with
  | case1 remaining call going' pick =>
    exact absurd pick (selectOwner_ne_none going.1)
  | case2 remaining call going' server pick less ih =>
    have moves := step_storing replicaCount fails upload now found bytes pick
    by_cases more : remaining.erase server ≠ [] ∧
        (call.next upload.hash fails server).stored.length < replicaCount
    · rw [storingNext, if_pos more] at moves
      obtain ⟨sends, ran⟩ := ih (withUpload cluster i upload
          (call.next upload.hash fails server).held
          (.storing (remaining.erase server) (call.next upload.hash fails server).stored))
        (by
          have mem := (List.getElem?_eq_some_iff.mp found).choose
          simp [withUpload, mem]) rfl more
      refine ⟨answerOf fails server :: sends, ?_⟩
      rw [map_cons, replay, moves]
      simpa [withUpload] using ran
    · rw [storingNext, if_neg more] at moves
      refine ⟨[answerOf fails server], ?_⟩
      rw [uploadLoop_stop more, map_singleton, replay, moves]
      rfl
  | case3 remaining call stops => exact absurd going stops

/--
From the placement on, the requests of an upload, answered as the providers
do, store what `uploadBlob` stores and end with its replicas.
-/
theorem replay_uploadBlob (now i : Nat) (cluster : Cluster)
    (found : cluster.tasks[i]? = some (.upload upload .placing)) (want : 1 ≤ replicaCount) :
    let out := uploadBlob replicaCount upload.npub upload.hash upload.startedAt
      fails cluster.roster cluster.held
    ∃ sends : List Delivery, replay (step replicaCount) cluster
      (sends.map fun sent => .advance i sent now) =
      some (withUpload cluster i upload out.held (match out.result with
      | .error _ => .ended
      | .ok copies => .creating true copies)) := by
  intro out
  have moves : step replicaCount cluster (.advance i .answered now) =
      some (withUpload cluster i upload cluster.held
        (storingNext replicaCount cluster.roster [])) := by
    simp only [step, found, taskStep, uploadStep, Option.map_some]
    rfl
  by_cases empty : cluster.roster = []
  · refine ⟨[.answered], ?_⟩
    simp [replay, moves, out, uploadBlob, empty, storingNext]
  · rw [storingNext, if_pos ⟨empty, want⟩] at moves
    have mem := (List.getElem?_eq_some_iff.mp found).choose
    obtain ⟨sends, ran⟩ := replay_uploadLoop replicaCount fails upload now i cluster.roster
      { stored := [], tried := [], held := cluster.held }
      (withUpload cluster i upload cluster.held (.storing cluster.roster []))
      (by simp [withUpload, mem]) rfl ⟨empty, want⟩
    refine ⟨.answered :: sends, ?_⟩
    rw [map_cons, replay, moves]
    dsimp only
    rw [ran]
    simp only [out, uploadBlob, empty, if_false, withUpload, set_set, afterLoop]
    generalize uploadLoop replicaCount upload.npub upload.hash upload.startedAt fails cluster.roster
        { stored := [], tried := [], held := cluster.held } = last
    by_cases none : last.stored = []
    · simp [none]
    · simp [none]

end

/-- The first provider that is picked fails, the second one takes the blob. -/
theorem uploadBlob_second :
    uploadBlob 1 "alice" "h" 0 (fun server => server == "p2") ["p1", "p2"] [] =
      ⟨.ok ["p1"], [("p1", "h")]⟩ := by
  have first : selectOwner "alice" ["p1", "p2"] 0 = some "p2" := by decide +kernel
  have second : selectOwner "alice" ["p1"] 0 = some "p1" := by decide +kernel
  rw [uploadBlob, if_neg (by decide), uploadLoop_step ⟨by decide, by decide⟩ first]
  have rest : ["p1", "p2"].erase "p2" = ["p1"] := by decide
  rw [rest, uploadLoop_step ⟨by decide, by decide⟩ second, uploadLoop_stop (by decide)]
  rfl

/-- The requests of such an upload while another one has just begun. -/
theorem replay_uploadBlob_two : ∃ sends : List Delivery, replay (step 1)
    ⟨⟨[], []⟩, ["p1", "p2"], [],
      [.upload ⟨"bob", "h", 3, 0⟩ .lookingUp, .upload ⟨"alice", "h", 3, 0⟩ .placing]⟩
      (sends.map fun sent => .advance 1 sent 0) =
    some ⟨⟨[], []⟩, ["p1", "p2"], [("p1", "h")],
      [.upload ⟨"bob", "h", 3, 0⟩ .lookingUp,
        .upload ⟨"alice", "h", 3, 0⟩ (.creating true ["p1"])]⟩ := by
  obtain ⟨sends, ran⟩ := replay_uploadBlob 1 (fun server => server == "p2") ⟨"alice", "h", 3, 0⟩ 0 1
    ⟨⟨[], []⟩, ["p1", "p2"], [],
      [.upload ⟨"bob", "h", 3, 0⟩ .lookingUp, .upload ⟨"alice", "h", 3, 0⟩ .placing]⟩ rfl le_rfl
  rw [uploadBlob_second] at ran
  exact ⟨sends, ran⟩

end StorageOrchestrator.Blossom.Upload
