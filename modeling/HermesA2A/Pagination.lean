import HermesA2A.Lib.Base64
import HermesA2A.Lib.IntText
import HermesA2A.Lib.Paging
import HermesA2A.QueueRuns
import HermesA2A.Responses

/-!
# The pages of ListTasks

`_build_paginated_task_list` takes a snapshot of the queue, sorts it newest first, and cuts
a page out of it at the offset that the client's token says.  The snapshot joins the pending
and the completed tasks, so a task that is completed or canceled stays in it, unless it is
filed over another: `_completed` has one place for an id, and `enqueue` takes an id that is
taken there already.  Then the snapshot is one task shorter, all that is older moves up by
one, and the next page begins one task too late.

* `decodeToken?_encodeToken` — a token is read as the offset it was made from.
* `buildPaginatedTaskList_eq`, `listItems_ids` — a page of the handler is `pageOf` its
  snapshot, one item for each task.
* `Traversal` — a client that follows the tokens, with changes between the pages.
* `Traversal.sees` — it sees every task, if nothing is filed over another.
-/

namespace HermesA2A

open TaskQueue

/-! ### Tokens -/

/-- `base64.b64encode(str(offset).encode()).decode()` -/
def encodeToken (offset : ℕ) : String :=
  String.ofList (Base64.encode (toString offset).toUTF8.data.toList)

/-- `int(base64.b64decode(token).decode())`; `none` where that raises.  A token that is no
text, or not an ASCII one, is refused by `b64decode`. -/
def decodeToken? : Json → Option ℤ
  | .str token =>
      if token.toList.all fun c => decide (c.toNat < 128) then
        (Base64.decode token.toList).bind fun bytes =>
          (String.fromUTF8? ⟨bytes.toArray⟩).bind fun text => IntText.int? text.toList
      else none
  | _ => none

/-- **A token is read as the offset it was made from.** -/
theorem decodeToken?_encodeToken (offset : ℕ) :
    decodeToken? (.str (encodeToken offset)) = some (offset : ℤ) := by
  have hascii : (encodeToken offset).toList.all (fun c => decide (c.toNat < 128)) = true := by
    rw [List.all_eq_true, encodeToken, String.toList_ofList]
    exact fun c hc => decide_eq_true (Base64.encode_ascii _ c hc)
  have htext : String.fromUTF8? (toString offset).toUTF8 = some (toString offset) :=
    dif_pos (toString offset).isValidUTF8
  have hint : IntText.int? (toString offset).toList = some (offset : ℤ) := by
    rw [Nat.toString_eq_ofList_toDigits, String.toList_ofList]
    exact IntText.int?_toDigits offset
  have hbytes : (⟨(toString offset).toUTF8.data.toList.toArray⟩ : ByteArray) =
      (toString offset).toUTF8 := by rw [Array.toArray_toList]
  rw [decodeToken?, if_pos hascii, encodeToken, String.toList_ofList, Base64.decode_encode,
    Option.bind_some, hbytes, htext, Option.bind_some]
  exact hint

theorem encodeToken_ne (offset : ℕ) : encodeToken offset ≠ "" := by
  intro h
  have hnone : decodeToken? (.str "") = none := by decide +kernel
  rw [← h, decodeToken?_encodeToken] at hnone
  cases hnone

/-- A server with these tokens. -/
def Site.withTokens (site : Site) : Site :=
  { site with
    decodeToken := fun token => (decodeToken? token).getD 0
    encodeToken := HermesA2A.encodeToken }

/-! ### Pages -/

/-- An entry of the snapshot. -/
abbrev Listed := Time × PendingTask × Option TaskState

/-- What a client gets: the tasks of the page, and the token of the next one. -/
structure Page where
  task : List Listed
  nextPageToken : String

/-- `all_tasks.sort(key=lambda x: x[0], reverse=True)` -/
def newestFirst (snapshot : List Listed) : List Listed :=
  snapshot.mergeSort fun x y => decide (x.1 ≥ y.1)

/-- The offset that a token says: 0 without one, and for one that cannot be decoded. -/
def offsetOf (token : Json) : ℕ :=
  if token.truthy then ((decodeToken? token).getD 0).toNat else 0

/-- The page of a snapshot. -/
def pageOf (snapshot : List Listed) (pageSize : ℤ) (token : Json) : Page where
  task := ((newestFirst snapshot).drop (offsetOf token)).take pageSize.toNat
  nextPageToken :=
    if (newestFirst snapshot).length > offsetOf token + pageSize.toNat then
      encodeToken (offsetOf token + pageSize.toNat)
    else ""

/-- The page of a queue. -/
def TaskQueue.page (q : TaskQueue) (pageSize : ℤ) (token : Json) : Page :=
  pageOf q.snapshot pageSize token

/-- **What the handler does**: it takes a snapshot, and answers with its page. -/
theorem buildPaginatedTaskList_eq (site : Site) (pageSize : ℤ) (token : Json)
    (stamps : ℕ → Stamp) :
    buildPaginatedTaskList site.withTokens pageSize token stamps = (do
      let snapshot ← call .snapshot
      let items ← listItems (pageOf snapshot pageSize token).task stamps
      return .obj
        [ ("task", .arr items), ("pageSize", .int pageSize),
          ("totalSize", .int (newestFirst snapshot).length),
          ("nextPageToken", .str (pageOf snapshot pageSize token).nextPageToken) ]) := rfl

/-- **The items are the tasks of the page**, in their order. -/
theorem listItems_ids (page : List Listed) (stamps : ℕ → Stamp) :
    Leaves (listItems page stamps) fun _ r => ∀ items, r = .ok items →
      items.map taskId? = page.map fun e => some e.2.1.taskId := by
  induction page generalizing stamps with
  | nil => exact leaves_pure fun items hitems => by cases hitems; rfl
  | cons entry page ih =>
      obtain ⟨createdAt, task, state⟩ := entry
      have hrest : ∀ filtered : Option String, Leaves
          (do
            let items ← listItems page fun n => stamps (n + 1)
            pure (buildTaskObject task.taskId ((state.map TaskState.name).getD "unknown")
              task.contextId filtered (some task.createdAt) (stamps 0) :: items))
          fun _ r => ∀ items, r = .ok items →
            items.map taskId? = ((createdAt, task, state) :: page).map
              fun e => some e.2.1.taskId := by
        intro filtered
        refine (ih _).bind (fun h items hids => leaves_pure ?_) fun h e _ items hitems => by
          cases hitems
        rintro items' hitems'
        cases hitems'
        rw [List.map_cons, List.map_cons, hids items rfl]
        rfl
      refine leaves_call_bind fun first _ => ?_
      cases nonEmpty? first with
      | none => exact hrest none
      | some _ =>
          refine leaves_call_bind fun response _ => ?_
          cases response with
          | none =>
              refine leaves_compute (x := .error .typeError) fun items hitems => ?_
              cases hitems
          | some response => exact hrest _

/-! ### The tasks of a queue -/

/-- The tasks that a snapshot lists. -/
def TaskQueue.tasks (q : TaskQueue) : List PendingTask := q.pending.values ++ q.completed.values

/-- The creation times of the tasks are pairwise distinct. -/
def TaskQueue.Distinct (q : TaskQueue) : Prop := (q.tasks.map PendingTask.createdAt).Nodup

instance (q : TaskQueue) : Decidable q.Distinct :=
  inferInstanceAs (Decidable (q.tasks.map PendingTask.createdAt).Nodup)

/-- A change between two pages: new tasks come with later creation times, tasks are completed
and canceled, and the caches are not trimmed. -/
def QueueCall.AddsOrEnds (caps : Caps) : QueueCall → TaskQueue → Prop
  | enqueue _ _ _ _ createdAt, q =>
      (∀ task ∈ q.tasks, task.createdAt < createdAt) ∧ q.pending.length < caps.taskCacheMax
  | complete _ _, q => q.completed.length < caps.taskCacheMax
  | requeueTasks _, _ => False
  | _, _ => True

/-- A task that is completed or canceled is not filed over another. -/
def QueueCall.EndsApart : QueueCall → TaskQueue → Prop
  | complete t _, q => t ∈ q.pending → t ∉ q.completed
  | cancel t, q => t ∈ q.pending → t ∉ q.completed
  | _, _ => True

section Tasks

variable {caps : Caps} {q q' : TaskQueue} {t : TaskId} {task : PendingTask}

/-- A task that is filed apart moves from the pending tasks to the completed ones. -/
theorem tasks_perm_of_filed (hget : q.pending.get? t = some task) (hno : t ∉ q.completed)
    (hpending : q'.pending = q.pending.erase t)
    (hcompleted : q'.completed = q.completed.set t task) : q'.tasks.Perm q.tasks := by
  have hvalues : q'.completed.values = q.completed.values ++ [task] := by
    rw [hcompleted, OrderedDict.values, OrderedDict.entries_set_of_notMem task hno,
      List.map_append]
    rfl
  have hout := OrderedDict.values_perm_erase hget
  unfold TaskQueue.tasks
  rw [hvalues, hpending, ← List.append_assoc]
  exact (List.perm_append_singleton ..).trans (hout.append_right _).symm

/-- An accepted task comes to the others, where there is room for it. -/
theorem tasks_perm_of_enqueued (h : Enqueued caps t task q q')
    (hroom : q.pending.length < caps.taskCacheMax) : q'.tasks.Perm (task :: q.tasks) := by
  have hnone : q.evictees caps t = [] := by
    rw [evictees, Nat.sub_eq_zero_of_le hroom]
    exact List.take_zero
  have hpending : q'.pending.values = q.pending.values ++ [task] := by
    rw [OrderedDict.values, h.entries, hnone, List.filter_eq_self.mpr
      fun e _ => decide_eq_true List.not_mem_nil, List.map_append]
    rfl
  rw [TaskQueue.tasks, hpending, h.completed, List.append_assoc]
  exact List.perm_middle

theorem TaskQueue.Distinct.perm (h : q.Distinct) (hperm : q'.tasks.Perm q.tasks) :
    q'.Distinct := (hperm.map _).nodup_iff.mpr h

/-- **One change**: no task is lost, and the creation times stay distinct. -/
theorem tasks_on (o : QueueCall) (hdistinct : q.Distinct) (hchange : o.AddsOrEnds caps q)
    (hapart : o.EndsApart q) : q.tasks.Subperm (o.on caps q).tasks ∧ (o.on caps q).Distinct := by
  have hsame : ∀ {q' : TaskQueue}, q'.tasks.Perm q.tasks →
      q.tasks.Subperm q'.tasks ∧ q'.Distinct :=
    fun hperm => ⟨hperm.symm.subperm, hdistinct.perm hperm⟩
  have hequal : ∀ {q' : TaskQueue}, q'.pending = q.pending → q'.completed = q.completed →
      q.tasks.Subperm q'.tasks ∧ q'.Distinct := by
    intro q' hpending hcompleted
    refine hsame (.of_eq ?_)
    rw [TaskQueue.tasks, hpending, hcompleted, TaskQueue.tasks]
  cases o with
  | enqueue t text metadata contextId createdAt =>
      obtain ⟨hlater, hroom⟩ := hchange
      rcases q.enqueued_of_enqueueWithin caps t text metadata contextId createdAt with
        ⟨hno, -⟩ | ⟨-, -, q', hyes, h⟩
      · exact hequal (congrArg (·.2.pending) hno) (congrArg (·.2.completed) hno)
      · have hperm := tasks_perm_of_enqueued h hroom
        have hon : (QueueCall.enqueue t text metadata contextId createdAt).on caps q = q' :=
          congrArg Prod.snd hyes
        rw [hon]
        refine ⟨(List.subperm_cons_self ..).trans hperm.symm.subperm, ?_⟩
        -- the new task is later than all others
        refine (hperm.map _).nodup_iff.mpr (List.nodup_cons.mpr ⟨fun hmem => ?_, hdistinct⟩)
        obtain ⟨task, htask, heq⟩ := List.mem_map.mp hmem
        exact absurd heq (hlater task htask).ne
  | requeueTasks tasks => exact hchange.elim
  | markProcessing t => exact hequal (markProcessing_pending ..) (markProcessing_completed ..)
  | transition t toState => exact hequal (transition_pending ..) (transition_completed ..)
  | complete t response =>
      cases hget : q.pending.get? t with
      | none =>
          have hno := completeWithin_of_notMem caps response (OrderedDict.get?_eq_none_iff.mp hget)
          exact hequal (congrArg (·.2.pending) hno) (congrArg (·.2.completed) hno)
      | some task =>
          have hno : t ∉ q.completed := hapart (OrderedDict.mem_of_get? hget)
          exact hsame (tasks_perm_of_filed hget hno (completeWithin_pending caps t response q)
            (completeWithin_completed_of_lt caps response hget hchange))
  | cancel t =>
      cases hget : q.pending.get? t with
      | none =>
          have hno := cancel_of_notMem (OrderedDict.get?_eq_none_iff.mp hget)
          exact hequal (congrArg (·.2.pending) hno) (congrArg (·.2.completed) hno)
      | some task =>
          have hno : t ∉ q.completed := hapart (OrderedDict.mem_of_get? hget)
          exact hsame (tasks_perm_of_filed hget hno (cancel_pending_eq t q)
            (cancel_completed_eq hget))
  | setAuthRequired t => exact hequal rfl rfl
  | setAuthenticated t => exact hequal rfl rfl

/-- **All changes between two pages.** -/
theorem tasks_run {calls : List QueueCall} (hdistinct : q.Distinct)
    (hok : Sequential.Each (QueueCall.on caps)
      (fun o q => o.AddsOrEnds caps q ∧ o.EndsApart q) calls q) :
    q.tasks.Subperm (Sequential.run (QueueCall.on caps) calls q).tasks ∧
      (Sequential.run (QueueCall.on caps) calls q).Distinct := by
  have halways := Sequential.always_of_each
    (I := fun q' => q.tasks.Subperm q'.tasks ∧ TaskQueue.Distinct q')
    (fun o q' ⟨hsub, hd⟩ ⟨hchange, hapart⟩ =>
      (tasks_on o hd hchange hapart).imp_left hsub.trans) ⟨List.Subperm.refl _, hdistinct⟩ hok
  exact Sequential.always_iff.mp halways calls [] (List.append_nil _).symm

end Tasks

/-! ### Following the tokens -/

/-- **A client follows the tokens** to the end: it begins at a queue with a token, and gets
these pages.  Before each further page the queue may change, as `ok` says. -/
inductive Traversal (caps : Caps) (ok : QueueCall → TaskQueue → Prop) (pageSize : ℤ) :
    TaskQueue → Json → List Page → Prop
  | last {q : TaskQueue} {token : Json} (h : (q.page pageSize token).nextPageToken = "") :
      Traversal caps ok pageSize q token [q.page pageSize token]
  | more {q : TaskQueue} {token : Json} {pages : List Page} (calls : List QueueCall)
      (h : (q.page pageSize token).nextPageToken ≠ "")
      (hok : Sequential.Each (QueueCall.on caps) ok calls q)
      (rest : Traversal caps ok pageSize (Sequential.run (QueueCall.on caps) calls q)
        (.str (q.page pageSize token).nextPageToken) pages) :
      Traversal caps ok pageSize q token (q.page pageSize token :: pages)

/-- The tasks of a page. -/
def Page.tasks (page : Page) : List PendingTask := page.task.map fun e => e.2.1

section Pages

variable {caps : Caps} {q : TaskQueue} {pageSize : ℤ} {token : Json} {pages : List Page}

theorem offsetOf_encodeToken (offset : ℕ) : offsetOf (.str (encodeToken offset)) = offset := by
  have htruthy : (Json.str (encodeToken offset)).truthy = true := by
    simp [Json.truthy, encodeToken_ne]
  rw [offsetOf, if_pos htruthy, decodeToken?_encodeToken]
  rfl

/-- A token that cannot be decoded is as good as none. -/
theorem page_of_undecodable (h : decodeToken? token = none) :
    q.page pageSize token = q.page pageSize .null := by
  have hoffset : offsetOf token = offsetOf .null := by
    rw [offsetOf, h]
    exact ite_self _
  unfold TaskQueue.page pageOf
  rw [hoffset]

/-- The tasks of a queue, newest first. -/
def TaskQueue.newest (q : TaskQueue) : List PendingTask :=
  (newestFirst q.snapshot).map fun e => e.2.1

theorem newest_perm (q : TaskQueue) : q.newest.Perm q.tasks := by
  have hback : q.snapshot.map (fun e => e.2.1) = q.tasks := by
    rw [TaskQueue.snapshot, List.map_map]
    exact List.map_id _
  exact ((List.mergeSort_perm ..).map _).trans (.of_eq hback)

theorem length_newest (q : TaskQueue) : q.newest.length = q.tasks.length :=
  (newest_perm q).length_eq

/-- Where the creation times are distinct, the order is strict. -/
theorem newest_descending (h : q.Distinct) : Paging.Descending PendingTask.createdAt q.newest := by
  have hkey : ∀ e ∈ newestFirst q.snapshot, e.1 = e.2.1.createdAt := by
    intro e he
    obtain ⟨task, -, rfl⟩ := List.mem_map.mp ((List.mergeSort_perm ..).mem_iff.mp he)
    rfl
  have hsorted : (newestFirst q.snapshot).Pairwise fun x y => y.1 ≤ x.1 := by
    have hmerge : (newestFirst q.snapshot).Pairwise fun x y => decide (x.1 ≥ y.1) = true :=
      List.pairwise_mergeSort
        (fun a b c hab hbc =>
          decide_eq_true ((of_decide_eq_true hbc).trans (of_decide_eq_true hab)))
        (fun a b => by simpa using le_total b.1 a.1) q.snapshot
    exact hmerge.imp of_decide_eq_true
  have hle : q.newest.Pairwise fun x y => y.createdAt ≤ x.createdAt := by
    refine List.pairwise_map.mpr (hsorted.imp_of_mem fun {x y} hx hy hxy => ?_)
    rwa [hkey x hx, hkey y hy] at hxy
  have hne : q.newest.Pairwise fun x y => x.createdAt ≠ y.createdAt :=
    List.pairwise_map.mp (((newest_perm q).map PendingTask.createdAt).nodup_iff.mpr h)
  exact (hle.and hne).imp fun hxy => lt_of_le_of_ne hxy.1 hxy.2.symm

theorem tasks_page (q : TaskQueue) (pageSize : ℤ) (token : Json) :
    (q.page pageSize token).tasks = Paging.page q.newest (offsetOf token) pageSize.toNat := by
  unfold Page.tasks TaskQueue.page pageOf Paging.page TaskQueue.newest
  rw [List.map_take, List.map_drop]

/-- There is a next page exactly if there are tasks left. -/
theorem nextPageToken_eq (q : TaskQueue) (pageSize : ℤ) (token : Json) :
    (q.page pageSize token).nextPageToken =
      if offsetOf token + pageSize.toNat < q.newest.length then
        encodeToken (offsetOf token + pageSize.toNat)
      else "" := by
  have hlen : (newestFirst q.snapshot).length = q.newest.length := (List.length_map _).symm
  unfold TaskQueue.page pageOf
  dsimp only
  rw [hlen]

theorem nextPageToken_of_lt (h : offsetOf token + pageSize.toNat < q.newest.length) :
    (q.page pageSize token).nextPageToken = encodeToken (offsetOf token + pageSize.toNat) :=
  (nextPageToken_eq ..).trans (if_pos h)

theorem nextPageToken_of_le (h : q.newest.length ≤ offsetOf token + pageSize.toNat) :
    (q.page pageSize token).nextPageToken = "" :=
  (nextPageToken_eq ..).trans (if_neg (Nat.not_lt.mpr h))

theorem length_le_of_last (h : (q.page pageSize token).nextPageToken = "") :
    q.newest.length ≤ offsetOf token + pageSize.toNat :=
  Nat.not_lt.mp fun hlt => encodeToken_ne _ ((nextPageToken_of_lt hlt).symm.trans h)

theorem offsetOf_next (h : (q.page pageSize token).nextPageToken ≠ "") :
    offsetOf (.str (q.page pageSize token).nextPageToken) = offsetOf token + pageSize.toNat ∧
      offsetOf token + pageSize.toNat < q.newest.length := by
  have hlt := Nat.not_le.mp fun hle => h (nextPageToken_of_le hle)
  rw [nextPageToken_of_lt hlt]
  exact ⟨offsetOf_encodeToken _, hlt⟩

/-- **A task that the client has not passed yet is seen.** -/
theorem Traversal.sees
    (h : Traversal caps (fun o q => o.AddsOrEnds caps q ∧ o.EndsApart q) pageSize q token pages)
    (hdistinct : q.Distinct) {task : PendingTask} (htask : task ∈ q.tasks)
    (hplace : offsetOf token ≤ Paging.newer PendingTask.createdAt q.newest task.createdAt) :
    ∃ page ∈ pages, task ∈ page.tasks := by
  induction h with
  | @last q token hlast =>
      refine ⟨_, List.mem_singleton_self _, ?_⟩
      have hmem := (newest_perm q).mem_iff.mpr htask
      rw [tasks_page]
      exact Paging.mem_page (newest_descending hdistinct) hmem hplace
        ((Paging.newer_lt_length hmem).trans_le (length_le_of_last hlast))
  | @more q token pages calls hmore hok rest ih =>
      have hmem := (newest_perm q).mem_iff.mpr htask
      by_cases hhere : Paging.newer PendingTask.createdAt q.newest task.createdAt <
          offsetOf token + pageSize.toNat
      · refine ⟨_, List.mem_cons_self, ?_⟩
        rw [tasks_page]
        exact Paging.mem_page (newest_descending hdistinct) hmem hplace hhere
      · -- it is behind this page, and stays there
        obtain ⟨hsub, hdistinct'⟩ := tasks_run hdistinct hok
        have hsub' := ((newest_perm q).subperm.trans hsub).trans (newest_perm _).symm.subperm
        obtain ⟨page, hpage, hseen⟩ := ih hdistinct' (hsub.subset htask) (by
          rw [(offsetOf_next hmore).1]
          exact (Nat.not_lt.mp hhere).trans (Paging.newer_le_of_subperm hsub' _))
        exact ⟨page, List.mem_cons_of_mem _ hpage, hseen⟩

/-- Nothing changes between the pages. -/
def NoChange (_ : QueueCall) (_ : TaskQueue) : Prop := False

theorem calls_eq_nil {calls : List QueueCall}
    (hok : Sequential.Each (QueueCall.on caps) NoChange calls q) : calls = [] := by
  cases calls with
  | nil => rfl
  | cons o calls => exact hok.1.elim

/-- **The pages of a queue that does not change** are what is left of it, cut into pieces. -/
theorem Traversal.pieces (h : Traversal caps NoChange pageSize q token pages)
    (hsize : 0 < pageSize.toNat) :
    pages.flatMap Page.tasks = q.newest.drop (offsetOf token) ∧
      pages.length =
        max 1 ((q.newest.length - offsetOf token + pageSize.toNat - 1) / pageSize.toNat) := by
  induction h with
  | @last q token hlast =>
      have hle := length_le_of_last hlast
      refine ⟨?_, ?_⟩
      · rw [List.flatMap_singleton, tasks_page, Paging.page_eq_drop hle]
      -- what is left fits on one page
      · have hone : (q.newest.length - offsetOf token + pageSize.toNat - 1) / pageSize.toNat < 2 :=
          (Nat.div_lt_iff_lt_mul hsize).mpr (by omega)
        rw [List.length_singleton]
        omega
  | @more q token pages calls hmore hok rest ih =>
      obtain rfl := calls_eq_nil hok
      obtain ⟨hoffset, hlt⟩ := offsetOf_next hmore
      obtain ⟨htasks, hlen⟩ := ih
      rw [Sequential.run_nil, hoffset] at htasks hlen
      refine ⟨?_, ?_⟩
      · rw [List.flatMap_cons, tasks_page, htasks, Paging.page_append_drop]
      -- it takes one page more than what is behind this one
      · have hnext : (q.newest.length - offsetOf token + pageSize.toNat - 1) / pageSize.toNat =
            (q.newest.length - (offsetOf token + pageSize.toNat) + pageSize.toNat - 1) /
              pageSize.toNat + 1 := by
          rw [← Nat.add_div_right _ hsize]
          congr 1
          omega
        have hpos : 1 ≤ (q.newest.length - (offsetOf token + pageSize.toNat) +
            pageSize.toNat - 1) / pageSize.toNat :=
          (Nat.le_div_iff_mul_le hsize).mpr (by omega)
        rw [List.length_cons, hlen, hnext]
        omega

/-- **The client comes to an end.** -/
theorem exists_traversal (caps : Caps) (q : TaskQueue) (hsize : 0 < pageSize.toNat) (left : ℕ)
    (token : Json) (hleft : q.newest.length - offsetOf token ≤ left) :
    ∃ pages, Traversal caps NoChange pageSize q token pages := by
  induction left generalizing token with
  | zero =>
      exact ⟨_, .last (nextPageToken_of_le (by omega))⟩
  | succ left ih =>
      by_cases hlast : (q.page pageSize token).nextPageToken = ""
      · exact ⟨_, .last hlast⟩
      · obtain ⟨hoffset, hlt⟩ := offsetOf_next hlast
        obtain ⟨pages, h⟩ := ih (.str (q.page pageSize token).nextPageToken) (by omega)
        exact ⟨_, .more [] hlast trivial h⟩

end Pages

/-- **The pages are complete.**  From the first page the tokens lead to an end.  If the queue
does not change, the pages have each task once, newest first, and are as many as it takes.  If
tasks are added, completed and canceled in between, and none is filed over another, each task
of the first snapshot is on a page.  A token that cannot be decoded stands for the first
page. -/
theorem pages_complete (caps : Caps) (q : TaskQueue) (pageSize : ℤ) (hdistinct : q.Distinct)
    (hsize : 1 ≤ pageSize) :
    (∃ pages, Traversal caps NoChange pageSize q .null pages) ∧
    (∀ pages, Traversal caps NoChange pageSize q .null pages →
      (pages.flatMap Page.tasks).Perm q.tasks ∧
      (pages.flatMap Page.tasks).Pairwise (fun x y => y.createdAt < x.createdAt) ∧
      (pages.length : ℤ) = max 1 ((q.tasks.length + pageSize - 1) / pageSize)) ∧
    (∀ pages, Traversal caps (fun o q => o.AddsOrEnds caps q ∧ o.EndsApart q) pageSize q .null
      pages → ∀ task ∈ q.tasks, ∃ page ∈ pages, task ∈ page.tasks) ∧
    ∀ token, decodeToken? token = none → q.page pageSize token = q.page pageSize .null := by
  have hpos : 0 < pageSize.toNat := by omega
  refine ⟨exists_traversal caps q hpos _ .null le_rfl, fun pages h => ?_,
    fun pages h task htask => ?_, fun token h => page_of_undecodable h⟩
  · obtain ⟨htasks, hlen⟩ := h.pieces hpos
    have hall : pages.flatMap Page.tasks = q.newest := htasks
    refine ⟨hall ▸ newest_perm q, hall ▸ newest_descending hdistinct, ?_⟩
    have hcast : ((q.tasks.length + pageSize.toNat - 1 : ℕ) : ℤ) =
        q.tasks.length + pageSize - 1 := by omega
    have hlen : pages.length = max 1 ((q.tasks.length + pageSize.toNat - 1) / pageSize.toNat) := by
      rw [hlen, length_newest]
      rfl
    have hdiv : (((q.tasks.length + pageSize.toNat - 1) / pageSize.toNat : ℕ) : ℤ) =
        (q.tasks.length + pageSize - 1) / pageSize := by
      rw [Int.natCast_ediv, hcast, Int.toNat_of_nonneg (by omega)]
    rw [hlen, ← hdiv]
    omega
  · exact h.sees hdistinct htask (Nat.zero_le _)

/-- The tasks of a snapshot that is in order already. -/
theorem newest_of_sorted {q : TaskQueue}
    (h : q.snapshot.Pairwise fun x y => decide (x.1 ≥ y.1) = true) : q.newest = q.tasks := by
  rw [TaskQueue.newest, newestFirst, List.mergeSort_of_pairwise h, TaskQueue.snapshot,
    List.map_map]
  exact List.map_id _

/-- Three tasks, two of them with one id: one was completed before the other came. -/
def reusedCalls : List QueueCall :=
  [ .enqueue (.str "b") "" (.obj []) .null 8, .enqueue (.str "z") "" (.obj []) .null 9,
    .complete (.str "z") "", .complete (.str "b") "",
    .enqueue (.str "z") "" (.obj []) .null 10 ]

/-- Four tasks on two pages: the fourth one comes after the first page. -/
theorem pages_complete_reused :
    (∃ pages, Traversal .source NoChange 2 (afterCalls .source reusedCalls) .null pages ∧
      (pages.flatMap Page.tasks).Perm (afterCalls .source reusedCalls).tasks ∧
      (pages.length : ℤ) = 2) ∧
    ∃ pages, Traversal .source (fun o q => o.AddsOrEnds .source q ∧ o.EndsApart q) 2
        (afterCalls .source reusedCalls) .null pages ∧
      ∀ task ∈ (afterCalls .source reusedCalls).tasks, ∃ page ∈ pages, task ∈ page.tasks := by
  let q := afterCalls .source reusedCalls
  let added : List QueueCall := [.enqueue (.str "c") "" (.obj []) .null 11]
  let q' := Sequential.run (QueueCall.on .source) added q
  obtain ⟨hend, hsame, hchanging, -⟩ := pages_complete .source q 2 (by decide +kernel) (by decide)
  have hlen : q.newest.length = 3 := (length_newest q).trans (by decide +kernel)
  have hlen' : q'.newest.length = 4 := (length_newest q').trans (by decide +kernel)
  refine ⟨?_, ?_⟩
  · obtain ⟨pages, h⟩ := hend
    obtain ⟨hperm, -, hpages⟩ := hsame pages h
    have hthree : q.tasks.length = 3 := by decide +kernel
    refine ⟨pages, h, hperm, ?_⟩
    rw [hpages, hthree]
    rfl
  · have hmore : (q.page 2 .null).nextPageToken = encodeToken 2 := by
      refine nextPageToken_of_lt ?_
      rw [hlen]
      decide
    have hlast : (q'.page 2 (.str (encodeToken 2))).nextPageToken = "" := by
      refine nextPageToken_of_le ?_
      rw [hlen', offsetOf_encodeToken]
      decide
    have hne : (q.page 2 .null).nextPageToken ≠ "" := by
      rw [hmore]
      exact encodeToken_ne 2
    have hlater : ∀ task ∈ q.tasks, task.createdAt < 11 := by decide +kernel
    have hroom : q.pending.length < Caps.source.taskCacheMax := by decide +kernel
    have h : Traversal .source (fun o q => o.AddsOrEnds .source q ∧ o.EndsApart q) 2 q .null
        [q.page 2 .null, q'.page 2 (.str (encodeToken 2))] := by
      refine .more added hne ⟨⟨⟨hlater, hroom⟩, trivial⟩, trivial⟩ ?_
      rw [hmore]
      exact .last hlast
    exact ⟨_, h, hchanging _ h⟩

/-- Two pages of two tasks.  The newest task is completed in between, and is filed over the
second one: then two tasks are left, the next page is the third one's, and the oldest task is
on no page. -/
theorem page_skips_task : ¬ ∀ (calls : List QueueCall) (pageSize : ℤ) (pages : List Page),
    (afterCalls .source calls).Distinct → 1 ≤ pageSize → pageSize ≤ 100 →
    Traversal .source (QueueCall.AddsOrEnds .source) pageSize (afterCalls .source calls) .null
      pages →
    ∀ task ∈ (afterCalls .source calls).tasks, ∃ page ∈ pages, task ∈ page.tasks := by
  intro hall
  let q := afterCalls .source reusedCalls
  let q' := Sequential.run (QueueCall.on .source) [.complete (.str "z") ""] q
  let first : PendingTask := ⟨2, .str "z", "", .obj [], .null, 10⟩
  let second : PendingTask := ⟨1, .str "z", "", .obj [], .null, 9⟩
  let oldest : PendingTask := ⟨0, .str "b", "", .obj [], .null, 8⟩
  have hnewest : q.newest = [first, second, oldest] :=
    (newest_of_sorted (by decide +kernel)).trans (by decide +kernel)
  have hnewest' : q'.newest = [first, oldest] :=
    (newest_of_sorted (by decide +kernel)).trans (by decide +kernel)
  have hmore : (q.page 2 .null).nextPageToken = encodeToken 2 := by
    refine nextPageToken_of_lt ?_
    rw [hnewest]
    decide
  have hlast : (q'.page 2 (.str (encodeToken 2))).nextPageToken = "" := by
    refine nextPageToken_of_le ?_
    rw [hnewest', offsetOf_encodeToken]
    decide
  have hpages : Traversal .source (QueueCall.AddsOrEnds .source) 2 q .null
      [q.page 2 .null, q'.page 2 (.str (encodeToken 2))] := by
    have hne : (q.page 2 .null).nextPageToken ≠ "" := by
      rw [hmore]
      exact encodeToken_ne 2
    have hroom : q.completed.length < Caps.source.taskCacheMax := by decide +kernel
    refine .more [.complete (.str "z") ""] hne ⟨hroom, trivial⟩ ?_
    rw [hmore]
    exact .last hlast
  obtain ⟨page, hpage, hseen⟩ := hall reusedCalls 2 _ (by decide +kernel) (by decide) (by decide)
    hpages oldest (by decide +kernel)
  rcases List.mem_pair.mp hpage with rfl | rfl
  · rw [tasks_page, hnewest] at hseen
    exact absurd hseen (by decide +kernel)
  · rw [tasks_page, hnewest', offsetOf_encodeToken] at hseen
    exact absurd hseen (by decide +kernel)

end HermesA2A
