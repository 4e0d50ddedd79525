import HermesA2A.Lib.TextSearch
import HermesA2A.Server.Http

/-!
# Where the documented paths lead

Each operation on a task has a documented path, made from the id of the task.  `do_GET` and `do_POST`
find the operations with a verb by looking for the verb anywhere in the path, and take the id from
what stands before it.

* `TaskOperation.path` — the documented paths; `TaskOperation.target` — where they are to lead.
* `getRoute_of_verb`, `getRoute_of_no_verb`, `postRoute_of_verb`, `postRoute_of_no_verb` — where a
  path under `/tasks/` does lead.
* `dispatch_iff` — the path of an operation leads to that operation and that id exactly if no id in
  it contains the verb that is looked for.
-/

namespace HermesA2A

/-- The three methods. -/
inductive HttpMethod
  | get
  | post
  | delete

/-- What a request is dispatched to. -/
inductive Dispatch
  | get (route : GetRoute)
  | post (route : PostRoute)
  | deletePushConfig (t id : String)
  | notFound
  deriving DecidableEq

/-- `do_GET`, `do_POST` and `do_DELETE`, up to the choice of a handler. -/
def HttpRequest.dispatch (req : HttpRequest) : HttpMethod → Dispatch
  | .get => .get req.getRoute
  | .post => .post req.postRoute
  | .delete =>
      if req.segments.length = 5 ∧ isConfigPath req.segments then
        .deletePushConfig (segmentText req.segments 2) (segmentText req.segments 4)
      else .notFound

/-- The handler. -/
def Dispatch.handler (site : Site) (req : HttpRequest) : Dispatch → Handler Unit
  | get route => route.handler site req
  | post route => route.handler site req
  | deletePushConfig t id => restDeletePushConfig site req t id
  | notFound => sendJson 404 (.obj [("error", .str "Not found")])

section Handlers

variable (site : Site) (req : HttpRequest)

theorem doPost_eq : doPost site req = (req.dispatch .post).handler site req := rfl

theorem doDelete_eq : doDelete site req = (req.dispatch .delete).handler site req := by
  unfold doDelete HttpRequest.dispatch
  by_cases h : req.segments.length = 5 ∧ isConfigPath req.segments
  · simp only [if_pos h, Dispatch.handler]
  · simp only [if_neg h, Dispatch.handler]

/-- A GET that is let in without being asked for a token. -/
theorem doGet_eq (h : ¬ (req.isGuarded = true ∧ site.requireAuth = true)) :
    doGet site req = guarded ((req.dispatch .get).handler site req) fun _ =>
      ⟨500, rpcErrorBody (-32603) "Internal error" .null⟩ := by
  unfold doGet
  rw [if_neg h]
  rfl

end Handlers

/-! ### The operations on a task -/

/-- The operations on a task, or on one of its push configurations. -/
inductive TaskOperation
  | getTask
  | subscribeToTask
  | cancelTask
  | createPushConfig
  | listPushConfigs
  | getPushConfig (id : String)
  | deletePushConfig (id : String)

namespace TaskOperation

/-- The method of an operation. -/
def method : TaskOperation → HttpMethod
  | cancelTask => .post
  | createPushConfig => .post
  | deletePushConfig _ => .delete
  | _ => .get

/-- **The documented path** of an operation. -/
def path (t : String) : TaskOperation → String
  | getTask => "/tasks/" ++ t
  | subscribeToTask => "/tasks/" ++ t ++ ":subscribe"
  | cancelTask => "/tasks/" ++ t ++ ":cancel"
  | createPushConfig => "/tasks/" ++ t ++ "/pushNotificationConfigs"
  | listPushConfigs => "/tasks/" ++ t ++ "/pushNotificationConfigs"
  | getPushConfig id => "/tasks/" ++ t ++ "/pushNotificationConfigs/" ++ id
  | deletePushConfig id => "/tasks/" ++ t ++ "/pushNotificationConfigs/" ++ id

/-- The handler an operation is to be dispatched to, with its ids. -/
def target (t : String) : TaskOperation → Dispatch
  | getTask => .get (.getTask t)
  | subscribeToTask => .get (.subscribe t)
  | cancelTask => .post (.cancel t)
  | createPushConfig => .post (.createPushConfig t)
  | listPushConfigs => .get (.listPushConfigs t)
  | getPushConfig id => .get (.getPushConfig t id)
  | deletePushConfig id => .deletePushConfig t id

/-- A part of the path contains the verb. -/
def HasVerb (verb id : String) : Prop := verb.toList <:+: id.toList

instance (verb id : String) : Decidable (HasVerb verb id) := inferInstanceAs (Decidable (_ <:+: _))

/-- The id of a configuration is one part of a path. -/
def OnePart (id : String) : Prop := '/' ∉ id.toList ∧ '?' ∉ id.toList

instance (id : String) : Decidable (OnePart id) := inferInstanceAs (Decidable (_ ∧ _))

/-- **The ids do not contain the verb that is looked for under this method**, and the id of a
configuration is one part of the path. -/
def Clear (t : String) : TaskOperation → Prop
  | getTask => ¬ HasVerb ":subscribe" t
  | subscribeToTask => ¬ HasVerb ":subscribe" t
  | cancelTask => ¬ HasVerb ":cancel" t
  | createPushConfig => ¬ HasVerb ":cancel" t
  | listPushConfigs => ¬ HasVerb ":subscribe" t
  | getPushConfig id => OnePart id ∧ ¬ HasVerb ":subscribe" t ∧ ¬ HasVerb ":subscribe" id
  | deletePushConfig id => OnePart id

instance (t : String) (op : TaskOperation) : Decidable (op.Clear t) := by
  cases op <;> unfold Clear <;> infer_instance

end TaskOperation

/-! ### What stands before a verb -/

theorem isSubstring_iff {text s : String} :
    Json.isSubstring text s = true ↔ text.toList <:+: s.toList := by
  unfold Json.isSubstring
  simp only [List.any_eq_true, List.mem_tails, List.isPrefixOf_iff_prefix]
  rw [List.infix_iff_prefix_suffix]
  exact ⟨fun ⟨rest, hsuffix, hprefix⟩ => ⟨rest, hprefix, hsuffix⟩,
    fun ⟨rest, hprefix, hsuffix⟩ => ⟨rest, hsuffix, hprefix⟩⟩

theorem beforeText_eq {sep : List Char} (hne : sep ≠ []) (text : List Char) :
    beforeText sep text = ((Text.find? sep text).map Prod.fst).getD text := by
  induction text with
  | nil =>
      rw [beforeText, Text.find?, if_neg hne]
      rfl
  | cons c text ih =>
      rw [beforeText, Text.find?]
      split_ifs with hstart
      · rfl
      · rw [ih]
        cases Text.find? sep text with
        | none => rfl
        | some found => rfl

theorem beforeText_of_not_infix {sep text : List Char} (hne : sep ≠ [])
    (h : ¬ sep <:+: text) : beforeText sep text = text := by
  rw [beforeText_eq hne, Text.find?_eq_none_iff.mpr h]
  rfl

/-- **What stands before a verb is the id exactly if the verb is not in the id.** -/
theorem beforeText_append_iff {c : Char} {verb text : List Char} (hc : c ∉ verb) :
    beforeText (c :: verb) (text ++ c :: verb) = text ↔ ¬ c :: verb <:+: text := by
  have hne : c :: verb ≠ [] := List.cons_ne_nil c verb
  rw [beforeText_eq hne]
  constructor
  · intro h hin
    obtain ⟨before, after, rfl⟩ := hin
    obtain ⟨found, hfind⟩ := Option.ne_none_iff_exists'.mp
      (mt Text.find?_eq_none_iff.mp (not_not.mpr ⟨before, after, rfl⟩) :
        Text.find? (c :: verb) (before ++ c :: verb ++ after) ≠ none)
    obtain ⟨first, rest⟩ := found
    rw [Text.find?_append_right hfind] at h
    have hlength := congrArg List.length (Text.find?_eq_some_iff.mp hfind).1
    change first = _ at h
    rw [← h] at hlength
    simp only [List.length_append, List.length_cons] at hlength
    omega
  · intro h
    have hfind : Text.find? (c :: verb) (text ++ c :: verb ++ []) = some (text, []) :=
      Text.find?_append (mt (Text.infix_of_append_dropLast hc) h)
    rw [List.append_nil] at hfind
    rw [hfind]
    rfl

/-! ### Paths under `/tasks/` -/

/-- The path has these parts: the id of the task, and what follows it. -/
structure UnderTasks (req : HttpRequest) (first : List Char) (rest : List (List Char)) : Prop where
  route : req.route = ['/'].intercalate ([] :: "tasks".toList :: first :: rest)
  segments : req.segments = [] :: "tasks".toList :: first :: rest

section Under

variable {req : HttpRequest} {first c : List Char} {rest : List (List Char)}

theorem underTasks_of_path
    (hpath : req.path.toList = ['/'].intercalate ([] :: "tasks".toList :: first :: rest))
    (hfirst : '/' ∉ first ∧ '?' ∉ first) (hrest : ∀ part ∈ rest, '/' ∉ part ∧ '?' ∉ part) :
    UnderTasks req first rest := by
  have hparts : ∀ part ∈ [] :: "tasks".toList :: first :: rest, '/' ∉ part ∧ '?' ∉ part := by
    intro part hmem
    simp only [List.mem_cons] at hmem
    rcases hmem with rfl | rfl | rfl | hmem
    · decide
    · decide
    · exact hfirst
    · exact hrest part hmem
  have hquery : '?' ∉ req.path.toList := by
    rw [hpath]
    intro hmem
    rw [← List.singleton_infix_iff, Text.infix_intercalate_iff (by decide) (by decide)] at hmem
    obtain ⟨part, hpart, hin⟩ := hmem
    exact (hparts part hpart).2 ((List.singleton_infix_iff ..).mp hin)
  have hroute : req.route = req.path.toList :=
    List.takeWhile_eq_self_iff.mpr fun c hc => decide_eq_true fun heq => hquery (heq ▸ hc)
  refine ⟨hroute.trans hpath, ?_⟩
  unfold HttpRequest.segments
  rw [hroute, hpath]
  exact List.splitOn_intercalate '/' (fun part hpart => (hparts part hpart).1) (by simp)

theorem UnderTasks.isTask (h : UnderTasks req first rest) :
    "/tasks/".toList.isPrefixOf req.route = true := by
  rw [List.isPrefixOf_iff_prefix, h.route]
  exact ⟨['/'].intercalate (first :: rest), by simp [List.intercalate]⟩

/-- A verb is found where a part contains it. -/
theorem UnderTasks.isSubstring_iff (h : UnderTasks req first rest) {verb : String}
    (hslash : '/' ∉ verb.toList) (hne : verb.toList ≠ [])
    (htasks : ¬ verb.toList <:+: "tasks".toList) :
    Json.isSubstring verb (String.ofList req.route) = true ↔
      verb.toList <:+: first ∨ ∃ part ∈ rest, verb.toList <:+: part := by
  rw [HermesA2A.isSubstring_iff, String.toList_ofList, h.route,
    Text.infix_intercalate_iff hslash hne]
  simp only [List.exists_mem_cons_iff, List.infix_nil, hne, htasks, false_or]

theorem UnderTasks.getRoute_of_verb (h : UnderTasks req first rest)
    (hverb : ":subscribe".toList <:+: first ∨ ∃ part ∈ rest, ":subscribe".toList <:+: part) :
    req.getRoute = .subscribe (String.ofList (beforeText ":subscribe".toList first)) := by
  have hin := (h.isSubstring_iff (by decide) (by decide) (by decide)).mpr hverb
  unfold HttpRequest.getRoute
  rw [if_pos ⟨h.isTask, hin⟩, h.segments]
  rfl

/-- Without the verb the number of parts decides. -/
theorem UnderTasks.getRoute_of_no_verb (h : UnderTasks req first rest)
    (hverb : ¬ (":subscribe".toList <:+: first ∨ ∃ part ∈ rest, ":subscribe".toList <:+: part)) :
    (rest = [] → req.getRoute = .getTask (String.ofList first)) ∧
      (rest = ["pushNotificationConfigs".toList] →
        req.getRoute = .listPushConfigs (String.ofList first)) ∧
      (rest = ["pushNotificationConfigs".toList, c] →
        req.getRoute = .getPushConfig (String.ofList first) (String.ofList c)) := by
  have hno := mt (h.isSubstring_iff (by decide) (by decide) (by decide)).mp hverb
  unfold HttpRequest.getRoute
  dsimp only
  rw [if_neg fun hsub => hno hsub.2, h.isTask, h.segments]
  refine ⟨?_, ?_, ?_⟩
  · rintro rfl
    rfl
  · rintro rfl
    rfl
  · rintro rfl
    rfl

theorem UnderTasks.not_message (h : UnderTasks req first rest) :
    req.route ≠ "/message:send".toList ∧ req.route ≠ "/message:stream".toList := by
  have htask := h.isTask
  refine ⟨fun heq => ?_, fun heq => ?_⟩ <;>
  · rw [heq] at htask
    cases htask

theorem UnderTasks.postRoute_of_verb (h : UnderTasks req first []) (hfirst : '/' ∉ first)
    (hverb : ":cancel".toList <:+: first) :
    req.postRoute = .cancel (String.ofList (beforeText ":cancel".toList first)) := by
  have hin := (h.isSubstring_iff (by decide) (by decide) (by decide)).mpr (Or.inl hverb)
  have hdrop : req.route.drop 7 = first := by
    rw [h.route]
    simp [List.intercalate]
  have hrest : beforeText "/tasks/".toList first = first :=
    beforeText_of_not_infix (by decide) fun hinfix => hfirst (List.IsInfix.subset hinfix (by decide))
  unfold HttpRequest.postRoute
  dsimp only
  rw [if_neg h.not_message.1, if_neg h.not_message.2, if_pos ⟨h.isTask, hin⟩, hdrop, hrest]

/-- A path with the verb is that of no configuration. -/
theorem UnderTasks.postRoute_isCancel (h : UnderTasks req first rest)
    (hverb : ":cancel".toList <:+: first) : ∃ t, req.postRoute = .cancel t := by
  have hin := (h.isSubstring_iff (by decide) (by decide) (by decide)).mpr (Or.inl hverb)
  unfold HttpRequest.postRoute
  dsimp only
  rw [if_neg h.not_message.1, if_neg h.not_message.2, if_pos ⟨h.isTask, hin⟩]
  exact ⟨_, rfl⟩

theorem UnderTasks.postRoute_of_no_verb
    (h : UnderTasks req first ["pushNotificationConfigs".toList])
    (hverb : ¬ ":cancel".toList <:+: first) :
    req.postRoute = .createPushConfig (String.ofList first) := by
  have hno : ¬ Json.isSubstring ":cancel" (String.ofList req.route) = true := by
    rw [h.isSubstring_iff (by decide) (by decide) (by decide)]
    rintro (hin | ⟨part, hpart, hin⟩)
    · exact hverb hin
    · obtain rfl := List.mem_singleton.mp hpart
      exact absurd hin (by decide)
  unfold HttpRequest.postRoute
  dsimp only
  rw [if_neg h.not_message.1, if_neg h.not_message.2, if_neg fun hsub => hno hsub.2, h.segments]
  rfl

end Under

/-! ### Each operation -/

section Operations

variable {req : HttpRequest} {t id : String}

/-- The id in front of a verb. -/
theorem ofList_beforeText_iff {c : Char} {verb : List Char} (hc : c ∉ verb) :
    String.ofList (beforeText (c :: verb) (t.toList ++ c :: verb)) = t ↔
      ¬ c :: verb <:+: t.toList := by
  rw [← beforeText_append_iff hc, ← String.toList_inj, String.toList_ofList]

theorem segmentText_of_mem {segments : List (List Char)} (h : segments.length = 5)
    (hid : segmentText segments 4 = id) : id.toList ∈ segments := by
  unfold segmentText at hid
  rw [← hid, String.toList_ofList, List.getD_eq_getElem?_getD,
    List.getElem?_eq_getElem (by omega), Option.getD_some]
  exact List.getElem_mem _

/-- A text that is one of the segments is one part of a path. -/
theorem onePart_of_mem (h : id.toList ∈ req.segments) : TaskOperation.OnePart id := by
  obtain ⟨hslash, hsub⟩ := Text.of_mem_splitOn h
  refine ⟨hslash, fun hmem => ?_⟩
  have hne := List.mem_takeWhile_imp (hsub hmem)
  exact absurd rfl (of_decide_eq_true hne)

theorem onePart_of_getRoute (h : req.getRoute = .getPushConfig t id) :
    TaskOperation.OnePart id := by
  unfold HttpRequest.getRoute at h
  dsimp only at h
  split_ifs at h with hsubscribe hfive
  obtain ⟨-, hid⟩ := GetRoute.getPushConfig.inj h
  exact onePart_of_mem (segmentText_of_mem hfive.1 hid)

theorem onePart_of_delete (h : req.dispatch .delete = .deletePushConfig t id) :
    TaskOperation.OnePart id := by
  unfold HttpRequest.dispatch at h
  dsimp only at h
  split_ifs at h with hfive
  obtain ⟨-, hid⟩ := Dispatch.deletePushConfig.inj h
  exact onePart_of_mem (segmentText_of_mem hfive.1 hid)

variable {rest : List (List Char)}

/-- A GET without a verb of its own. -/
theorem get_iff (h : UnderTasks req t.toList rest) {route : GetRoute}
    (hroute : ∀ t', route ≠ .subscribe t')
    (hclear : ¬ ":subscribe".toList <:+: t.toList → req.getRoute = route) :
    req.dispatch .get = .get route ↔ ¬ TaskOperation.HasVerb ":subscribe" t := by
  constructor
  · intro hdispatch hverb
    have hget := Dispatch.get.inj hdispatch
    rw [h.getRoute_of_verb (Or.inl hverb)] at hget
    exact hroute _ hget.symm
  · exact fun hverb => congrArg Dispatch.get (hclear hverb)

theorem getTask_iff (h : UnderTasks req t.toList []) :
    req.dispatch .get = .get (.getTask t) ↔ ¬ TaskOperation.HasVerb ":subscribe" t := by
  refine get_iff h (fun _ heq => by cases heq) fun hverb => ?_
  rw [(h.getRoute_of_no_verb (c := []) (by simpa using hverb)).1 rfl, String.ofList_toList]

theorem listPushConfigs_iff (h : UnderTasks req t.toList ["pushNotificationConfigs".toList]) :
    req.dispatch .get = .get (.listPushConfigs t) ↔
      ¬ TaskOperation.HasVerb ":subscribe" t := by
  refine get_iff h (fun _ heq => by cases heq) fun hverb => ?_
  have hrest : ¬ ∃ part ∈ ["pushNotificationConfigs".toList], ":subscribe".toList <:+: part := by
    rintro ⟨part, hpart, hin⟩
    obtain rfl := List.mem_singleton.mp hpart
    exact absurd hin (by decide)
  rw [(h.getRoute_of_no_verb (c := []) (not_or.mpr ⟨hverb, hrest⟩)).2.1 rfl,
    String.ofList_toList]

theorem subscribeToTask_iff (h : UnderTasks req (t.toList ++ ":subscribe".toList) []) :
    req.dispatch .get = .get (.subscribe t) ↔ ¬ TaskOperation.HasVerb ":subscribe" t := by
  have hroute := h.getRoute_of_verb (Or.inl (List.suffix_append _ _).isInfix)
  show Dispatch.get req.getRoute = _ ↔ _
  rw [hroute, Dispatch.get.injEq, GetRoute.subscribe.injEq]
  exact ofList_beforeText_iff (by decide)

theorem cancelTask_iff (h : UnderTasks req (t.toList ++ ":cancel".toList) [])
    (hslash : '/' ∉ t.toList) :
    req.dispatch .post = .post (.cancel t) ↔ ¬ TaskOperation.HasVerb ":cancel" t := by
  have hfirst : '/' ∉ t.toList ++ ":cancel".toList := by
    rw [List.mem_append]
    exact not_or.mpr ⟨hslash, by decide⟩
  have hroute := h.postRoute_of_verb hfirst (List.suffix_append _ _).isInfix
  show Dispatch.post req.postRoute = _ ↔ _
  rw [hroute, Dispatch.post.injEq, PostRoute.cancel.injEq]
  exact ofList_beforeText_iff (by decide)

theorem createPushConfig_iff (h : UnderTasks req t.toList ["pushNotificationConfigs".toList]) :
    req.dispatch .post = .post (.createPushConfig t) ↔
      ¬ TaskOperation.HasVerb ":cancel" t := by
  constructor
  · intro hdispatch hverb
    obtain ⟨t', hroute⟩ := h.postRoute_isCancel hverb
    have hpost := Dispatch.post.inj hdispatch
    rw [hroute] at hpost
    cases hpost
  · intro hverb
    show Dispatch.post req.postRoute = _
    rw [h.postRoute_of_no_verb hverb, String.ofList_toList]

theorem getPushConfig_iff
    (h : TaskOperation.OnePart id →
      UnderTasks req t.toList ["pushNotificationConfigs".toList, id.toList]) :
    req.dispatch .get = .get (.getPushConfig t id) ↔
      (TaskOperation.OnePart id ∧ ¬ TaskOperation.HasVerb ":subscribe" t ∧
        ¬ TaskOperation.HasVerb ":subscribe" id) := by
  have hverbs : (":subscribe".toList <:+: t.toList ∨
      ∃ part ∈ ["pushNotificationConfigs".toList, id.toList], ":subscribe".toList <:+: part) ↔
      TaskOperation.HasVerb ":subscribe" t ∨ TaskOperation.HasVerb ":subscribe" id := by
    have hno : ¬ ":subscribe".toList <:+: "pushNotificationConfigs".toList := by decide
    simp only [List.exists_mem_cons_iff, hno, false_or, List.not_mem_nil, false_and,
      exists_false, or_false]
    rfl
  constructor
  · intro hdispatch
    have hget := Dispatch.get.inj hdispatch
    have hone := onePart_of_getRoute hget
    refine ⟨hone, not_or.mp fun hverb => ?_⟩
    rw [(h hone).getRoute_of_verb (hverbs.mpr hverb)] at hget
    cases hget
  · rintro ⟨hone, hclear⟩
    have hroute := ((h hone).getRoute_of_no_verb (mt hverbs.mp (not_or.mpr hclear))).2.2 rfl
    rw [String.ofList_toList, String.ofList_toList] at hroute
    exact congrArg Dispatch.get hroute

theorem deletePushConfig_iff
    (h : TaskOperation.OnePart id →
      UnderTasks req t.toList ["pushNotificationConfigs".toList, id.toList]) :
    req.dispatch .delete = .deletePushConfig t id ↔ TaskOperation.OnePart id := by
  constructor
  · exact onePart_of_delete
  · intro hone
    unfold HttpRequest.dispatch
    dsimp only
    rw [(h hone).segments]
    show Dispatch.deletePushConfig (String.ofList t.toList) (String.ofList id.toList) = _
    rw [String.ofList_toList, String.ofList_toList]

end Operations

/-- **The documented path of an operation leads to it, with the ids it was made from, exactly if no
id contains a verb that is looked for.** -/
theorem dispatch_iff (op : TaskOperation) (t : String) (req : HttpRequest)
    (hpath : req.path = op.path t) (hslash : '/' ∉ t.toList) (hquery : '?' ∉ t.toList) :
    req.dispatch op.method = op.target t ↔ op.Clear t := by
  have hlist : req.path.toList = (op.path t).toList := congrArg String.toList hpath
  have hverb : ∀ verb : String, '/' ∉ verb.toList → '?' ∉ verb.toList →
      '/' ∉ t.toList ++ verb.toList ∧ '?' ∉ t.toList ++ verb.toList := by
    intro verb hslash' hquery'
    simp only [List.mem_append]
    exact ⟨not_or.mpr ⟨hslash, hslash'⟩, not_or.mpr ⟨hquery, hquery'⟩⟩
  have hconfigs : ∀ part ∈ ["pushNotificationConfigs".toList], '/' ∉ part ∧ '?' ∉ part := by
    intro part hpart
    obtain rfl := List.mem_singleton.mp hpart
    decide
  have hconfig : ∀ id : String, TaskOperation.OnePart id →
      ∀ part ∈ ["pushNotificationConfigs".toList, id.toList], '/' ∉ part ∧ '?' ∉ part := by
    intro id hone part hpart
    rcases List.mem_cons.mp hpart with rfl | hpart
    · decide
    · obtain rfl := List.mem_singleton.mp hpart
      exact hone
  cases op with
  | getTask =>
      refine getTask_iff (underTasks_of_path ?_ ⟨hslash, hquery⟩ fun part hpart => by cases hpart)
      simp [hlist, TaskOperation.path, List.intercalate]
  | subscribeToTask =>
      refine subscribeToTask_iff (underTasks_of_path ?_ (hverb _ (by decide) (by decide))
        fun part hpart => by cases hpart)
      simp [hlist, TaskOperation.path, List.intercalate]
  | cancelTask =>
      refine cancelTask_iff (underTasks_of_path ?_ (hverb _ (by decide) (by decide))
        fun part hpart => by cases hpart) hslash
      simp [hlist, TaskOperation.path, List.intercalate]
  | createPushConfig =>
      refine createPushConfig_iff (underTasks_of_path ?_ ⟨hslash, hquery⟩ hconfigs)
      simp [hlist, TaskOperation.path, List.intercalate]
  | listPushConfigs =>
      refine listPushConfigs_iff (underTasks_of_path ?_ ⟨hslash, hquery⟩ hconfigs)
      simp [hlist, TaskOperation.path, List.intercalate]
  | getPushConfig id =>
      refine getPushConfig_iff fun hone =>
        underTasks_of_path ?_ ⟨hslash, hquery⟩ (hconfig id hone)
      simp [hlist, TaskOperation.path, List.intercalate]
  | deletePushConfig id =>
      refine deletePushConfig_iff fun hone =>
        underTasks_of_path ?_ ⟨hslash, hquery⟩ (hconfig id hone)
      simp [hlist, TaskOperation.path, List.intercalate]

/-- The configuration `config-1` of a task whose id has a colon in it. -/
theorem dispatch_colon :
    (HttpRequest.sample "/tasks/a:b/pushNotificationConfigs/config-1" .null).dispatch .get =
      .get (.getPushConfig "a:b" "config-1") :=
  (dispatch_iff (.getPushConfig "config-1") "a:b" _ rfl (by decide) (by decide)).mpr (by decide)

/-- **The task `a:subscribe`**: GetTask leads to SubscribeToTask for the task `a`. -/
theorem getTask_subscribes :
    let req := HttpRequest.sample (TaskOperation.getTask.path "a:subscribe") .null
    req.dispatch .get = .get (.subscribe "a") ∧
      req.dispatch .get ≠ TaskOperation.getTask.target "a:subscribe" := by
  decide

end HermesA2A
