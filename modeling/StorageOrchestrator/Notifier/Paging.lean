import StorageOrchestrator.Notifier.Delivery

/-!
# The pages of a notifier pass

`runOnce` reads the users page by page, and each page skips the rows of the
pages before it in the order the database has at that moment.  A renewal moves
a row to another place of this order, so rows may move across the boundary
between the pages that have been read and the others.  A user that has an
expiry all along and stays on its side of that boundary is evaluated once.
-/

namespace StorageOrchestrator.Notifier.Paging

open Lib.Transition Lifecycle.Purging Notifier.Delivery List

/-- The users at the time a page is read, and how the query orders equal dates. -/
structure Reading where
  users : List Item
  order : Arrangement

/-- The users alone. -/
def Reading.world (reading : Reading) : Delivery.World := ⟨reading.users, [], [], []⟩

/-- The users with an expiry, in the order of the query. -/
def Reading.names (reading : Reading) : List String :=
  (reading.order.arrange reading.world.attention).map (·.1)

/-- The users that a pass evaluates, if it ends with these readings. -/
def runOnce (page : Nat) : List Reading → Option (List Item)
  | [] => none
  | reading :: later =>
    let items := reading.world.listAttentionUsers reading.order page
    if items.length < pageSize ∨ reading.world.attention.length ≤ page * pageSize then some items
    else (runOnce (page + 1) later).map (items ++ ·)

/-- Who has an expiry at every reading is evaluated exactly once. -/
def Covers (readings : List Reading) : Prop :=
  ∀ evaluated, runOnce 1 readings = some evaluated → ∀ npub : String,
    (∀ reading ∈ readings, npub ∈ reading.names) → (evaluated.map (·.1)).count npub = 1

/-- The users on the first pages. -/
def Reading.upTo (reading : Reading) (page : Nat) : List String :=
  reading.names.take (page * pageSize)

/--
From one reading to the next, nobody who has an expiry at both moves across the
end of the last page that was read.
-/
def Uncrossed : Nat → List Reading → Prop
  | page, reading :: next :: later =>
    (∀ npub ∈ reading.upTo page, npub ∈ next.names → npub ∈ next.upTo page) ∧
      (∀ npub ∈ next.upTo page, npub ∈ reading.names → npub ∈ reading.upTo page) ∧
        Uncrossed (page + 1) (next :: later)
  | _, _ => True

variable {readings : List Reading} {evaluated : List Item}

theorem runOnce_isSome (page : Nat) (some : readings ≠ [])
    (bounded : ∀ read ∈ readings, read.world.attention.length ≤ bound)
    (many : bound < (page + readings.length) * pageSize) :
    (runOnce (page + 1) readings).isSome := by
  induction readings generalizing page with
  | nil => exact absurd rfl some
  | cons read later ih =>
    rw [runOnce]
    split
    · rfl
    · rename_i more
      have least := bounded read (mem_cons_self ..)
      rw [Option.isSome_map]
      refine ih (page + 1) ?_ (fun next mem => bounded next (mem_cons_of_mem _ mem)) ?_
      · rintro rfl
        simp only [length_singleton] at many
        omega
      · simpa [Nat.add_assoc, Nat.add_comm 1] using many

/-- A page comes after the pages before it. -/
theorem Reading.upTo_succ (reading : Reading) (page : Nat) :
    reading.upTo (page + 1) = reading.upTo page ++
      (reading.world.listAttentionUsers reading.order (page + 1)).map (·.1) := by
  simp only [Reading.upTo, Reading.names, Delivery.World.listAttentionUsers, Nat.add_sub_cancel,
    Nat.succ_mul, take_add, map_take, map_drop]

/-- The last page ends the list. -/
theorem upTo_last {reading : Reading}
    (last : (reading.world.listAttentionUsers reading.order (page + 1)).length < pageSize ∨
      reading.world.attention.length ≤ (page + 1) * pageSize) :
    reading.upTo (page + 1) = reading.names := by
  apply take_of_length_le
  simp only [Delivery.World.listAttentionUsers, length_take, length_drop, Nat.add_sub_cancel,
    (reading.order.perm _).length_eq, Reading.names, length_map, pageSize] at last ⊢
  omega

/-- Who is on the pages up to this one is on this one, or on one before it. -/
theorem count_page {reading : Reading} (distinct : reading.names.Nodup)
    (mem : npub ∈ reading.upTo (page + 1)) :
    ((reading.world.listAttentionUsers reading.order (page + 1)).map (·.1)).count npub =
      if npub ∈ reading.upTo page then 0 else 1 := by
  have once : (reading.upTo (page + 1)).Nodup := distinct.sublist (take_sublist ..)
  rw [Reading.upTo_succ] at once mem
  split
  · rename_i before
    exact count_eq_zero_of_not_mem (disjoint_of_nodup_append once before)
  · rename_i unread
    exact count_eq_one_of_mem once.of_append_right ((mem_append.mp mem).resolve_left unread)

/-- A user that stays on its side is evaluated once, unless its page has been read. -/
theorem count_runOnce (page : Nat) {reading : Reading} {later : List Reading}
    (distinct : ∀ read ∈ reading :: later, read.names.Nodup)
    (has : ∀ read ∈ reading :: later, npub ∈ read.names)
    (uncrossed : Uncrossed (page + 1) (reading :: later))
    (ended : runOnce (page + 1) (reading :: later) = some evaluated) :
    (evaluated.map (·.1)).count npub = if npub ∈ reading.upTo page then 0 else 1 := by
  induction later generalizing page reading evaluated with
  | nil =>
    rw [runOnce] at ended
    split at ended
    · rename_i last
      cases ended
      exact count_page (distinct _ mem_cons_self) ((upTo_last last).symm ▸ has _ mem_cons_self)
    · cases ended
  | cons next later ih =>
    rw [runOnce] at ended
    split at ended
    · rename_i last
      cases ended
      exact count_page (distinct _ mem_cons_self) ((upTo_last last).symm ▸ has _ mem_cons_self)
    · obtain ⟨rest, follows, rfl⟩ := Option.map_eq_some_iff.mp ended
      obtain ⟨stays, enters, uncrossed⟩ := uncrossed
      have sides : npub ∈ reading.upTo (page + 1) ↔ npub ∈ next.upTo (page + 1) :=
        ⟨fun mem => stays npub mem (has next (by simp)),
          fun mem => enters npub mem (has reading (by simp))⟩
      have counted := ih (page + 1) (fun read mem => distinct read (mem_cons_of_mem _ mem))
        (fun read mem => has read (mem_cons_of_mem _ mem)) uncrossed follows
      rw [map_append, count_append, counted]
      by_cases onPage : npub ∈ reading.upTo (page + 1)
      · rw [if_pos (sides.mp onPage), count_page (distinct _ mem_cons_self) onPage, Nat.add_zero]
      · rw [if_neg (mt sides.mpr onPage)]
        rw [Reading.upTo_succ, mem_append, not_or] at onPage
        rw [count_eq_zero_of_not_mem onPage.2, if_neg onPage.1]

/-- So many users, each with its expiry. -/
def manyUsers (count : Nat) (expiry : Nat → Nat) : Reading where
  users := (range count).map fun number => (toString number, ⟨some (expiry number), none, 0⟩)
  order := .stable

/--
After the first page is read, one user on it and the user after it renew, and a
new user buys a plan.
-/
def renewals : List Reading :=
  [manyUsers 101 id,
    manyUsers 102 fun number => if number = 5 then 50 else if number = 100 then 500 else number]

/-- The page that a pass reads at a step. -/
def reads (number : Nat) (world : Delivery.World) : Delivery.Event → List Reading
  | .pass other (.listed order _) => if other = number then [⟨world.users, order⟩] else []
  | _ => []

/-- The next user of a pass. -/
def nextItem (pass : Delivery.Pass) : List Item :=
  match pass.phase with
  | .handling (item :: _) _ _ => [item]
  | _ => []

/-- The user that a pass evaluates at a step. -/
def evaluates (number : Nat) (world : Delivery.World) : Delivery.Event → List Item
  | .pass other .proceed =>
    if other = number then world.passes[number]?.toList.flatMap nextItem else []
  | _ => []

/-- The pass is not cut off, and its pages arrive. -/
def Uncut (number : Nat) : Delivery.Event → Prop
  | .pass other (.listed _ delivery) => other = number → delivery = .answered
  | .crash other => other ≠ number
  | _ => True

/-- The items, and the pages after them. -/
def onwards (later : List Reading) (items : List Item) (page : Nat) (more : Bool) :
    Option (List Item) :=
  if more then (runOnce (page + 1) later).map (items ++ ·) else some items

/-- What a pass still evaluates, if its later pages are read like this. -/
def remaining (later : List Reading) : Phase → Option (List Item)
  | .listing page => runOnce page later
  | .handling items page more => onwards later items page more
  | .delivering _ _ spot | .sending _ _ _ spot | .purging spot =>
    onwards later spot.rest spot.page spot.more
  | .ended => some []

section

variable {options : Options} {world next : Delivery.World} {pass : Delivery.Pass}

theorem onwards_append (front items : List Item) :
    onwards later (front ++ items) page more =
      (onwards later items page more).map (front ++ ·) := by
  unfold onwards
  split
  · rw [Option.map_map]
    exact congrArg (Option.map · _) (funext fun rest => append_assoc ..)
  · rfl

/-- A page that is read is what the pass handles next. -/
theorem runOnce_cons (world : Delivery.World) (order : Arrangement) (page : Nat) :
    runOnce page (⟨world.users, order⟩ :: later) =
      onwards later (world.listAttentionUsers order page) page
        (!((world.listAttentionUsers order page).length < pageSize ||
          world.attention.length ≤ page * pageSize)) := by
  unfold runOnce onwards
  simp only [Bool.not_eq_true', ← Bool.not_eq_true, Bool.or_eq_true, decide_eq_true_eq, ite_not]
  rfl

/-- A step of a pass takes what it evaluates off what remains. -/
theorem remaining_of_passStep (uncut : Uncut number (.pass number reply))
    (found : world.passes[number]? = some pass)
    (replied : Delivery.passStep options world pass reply = some moved) :
    remaining (reads number world (.pass number reply) ++ later) pass.phase =
      (remaining later moved.phase).map (evaluates number world (.pass number reply) ++ ·) := by
  obtain ⟨now, phase⟩ := pass
  simp only [evaluates, found]
  cases reply with
  | listed order sent =>
    cases uncut rfl
    simp only [Delivery.passStep] at replied
    split at replied <;> cases replied
    simp [reads, remaining, runOnce_cons]
  | logged sent =>
    simp only [Delivery.passStep] at replied
    split at replied
    · split at replied <;> cases replied <;> simp [reads, remaining]
    · cases replied
  | send result =>
    simp only [Delivery.passStep] at replied
    split at replied <;> cases replied
    simp [reads, remaining]
  | purge purged =>
    simp only [Delivery.passStep] at replied
    split at replied
    · split at replied <;> cases replied <;> simp [reads, remaining]
    · cases replied
  | proceed =>
    simp only [Delivery.passStep] at replied
    split at replied <;> cases replied
    · rename_i item rest page more
      simpa [reads, remaining, nextItem] using onwards_append [item] rest
    · rename_i page more
      cases more <;> simp [reads, remaining, onwards, nextItem]
    · rename_i spot
      by_cases due : purgeIsDue options.setting now spot.item.2 = true <;>
        simp [reads, remaining, nextItem, due]
    · simp [reads, remaining, nextItem]

theorem remaining_of_step (uncut : Uncut number event) (found : world.passes[number]? = some pass)
    (ran : Delivery.step options world event = some next) :
    ∃ moved, next.passes[number]? = some moved ∧
      remaining (reads number world event ++ later) pass.phase =
        (remaining later moved.phase).map (evaluates number world event ++ ·) := by
  have inside := (List.getElem?_eq_some_iff.mp found).1
  cases event with
  | users items =>
    cases ran
    exact ⟨pass, found, by simp [reads, evaluates]⟩
  | start now =>
    cases ran
    exact ⟨pass, getElem?_append_left inside ▸ found, by simp [reads, evaluates]⟩
  | pass other reply =>
    simp only [Delivery.step] at ran
    by_cases own : other = number
    · subst own
      rw [found] at ran
      obtain ⟨moved, replied, rfl⟩ := Option.map_eq_some_iff.mp ran
      exact ⟨_, getElem?_set_self inside, remaining_of_passStep uncut found replied⟩
    · split at ran
      · cases ran
      · obtain ⟨moved, replied, rfl⟩ := Option.map_eq_some_iff.mp ran
        refine ⟨pass, (getElem?_set_ne own).trans found, ?_⟩
        cases reply <;> simp [reads, evaluates, own]
  | crash other =>
    simp only [Delivery.step] at ran
    split at ran <;> cases ran
    exact ⟨pass, (getElem?_set_ne uncut).trans found, by simp [reads, evaluates]⟩

/-- A pass that ends in a run evaluates what `runOnce` does with the pages read in that run. -/
theorem runOnce_of_run
    (run : GuardedRun (Delivery.step options) (fun _ => Uncut number) world events final)
    (found : world.passes[number]? = some pass)
    (ended : final.passes[number]? = some ⟨now, .ended⟩) :
    remaining (observed (Delivery.step options) (reads number) world events) pass.phase =
      some (observed (Delivery.step options) (evaluates number) world events) := by
  induction run generalizing pass with
  | done state =>
    cases found.symm.trans ended
    rfl
  | move uncut ran rest ih =>
    obtain ⟨moved, follows, taken⟩ := remaining_of_step uncut found ran
    simp only [observed, ran]
    rw [taken, ih follows ended]
    rfl

end

end StorageOrchestrator.Notifier.Paging
