import AttributionReporting.Proofs.Store.Effects

/-!
# Writes that credit a source

While an attribution is made, the source that won it is written several times, each time in another
field. Together these writes replace this source and leave the others alone
(`foldlM_onSources_of_credits`), so what each of them keeps of the source, the source keeps
(`creditAll_same`). Setting a status for several records changes exactly the records with these ids.
-/

namespace AttributionReporting

namespace Write

/-- A write that changes reports, or the source with the given id in something else than its
status. -/
def Credits (id : String) : Write → Prop
  | setEventDedupKeys sourceId _ | setAggregateDedupKeys sourceId _ | setContributions sourceId _ |
    setReportSpec sourceId _ => sourceId = id
  | insertEventReport _ | deleteEventReport _ | insertAggregateReport _ => True
  | setSourceStatus .. | setTriggerStatus .. | insertAttribution _ => False

theorem Credits.onTriggers {id : String} {w : Write} (h : w.Credits id) : w.onTriggers = some := by
  cases w with
  | setTriggerStatus => cases h
  | _ => rfl

theorem Credits.onAttributions {id : String} {w : Write} (h : w.Credits id) :
    w.onAttributions = some := by
  cases w with
  | insertAttribution => cases h
  | _ => rfl

/-- What a write that credits a source makes of it. -/
def onSource : Write → Source → Source
  | setEventDedupKeys _ keys, s => { s with eventDedupKeys := keys }
  | setAggregateDedupKeys _ keys, s => { s with aggregateDedupKeys := keys }
  | setContributions _ contributions, s => { s with contributions }
  | setReportSpec _ spec, s => { s with reportSpec := spec }
  | _, s => s

theorem onSource_id (w : Write) (s : Source) : (w.onSource s).id = s.id := by
  cases w <;> rfl

theorem onSource_status (w : Write) (s : Source) : (w.onSource s).status = s.status := by
  cases w <;> rfl

/-- What writes that credit a source make of it, one after the other. -/
def creditAll (writes : List Write) (s : Source) : Source :=
  writes.foldl (fun s w => w.onSource s) s

theorem creditAll_append (first second : List Write) (s : Source) :
    creditAll (first ++ second) s = creditAll second (creditAll first s) :=
  List.foldl_append

/-- What every write keeps of a source, all of them keep together. -/
theorem creditAll_same {β : Type} (part : Source → β) {writes : List Write}
    (same : ∀ w ∈ writes, ∀ s, part (w.onSource s) = part s) (s : Source) :
    part (creditAll writes s) = part s := by
  induction writes generalizing s with
  | nil => rfl
  | cons w rest ih =>
    obtain ⟨first, others⟩ := List.forall_mem_cons.1 same
    exact (ih others (w.onSource s)).trans (first s)

theorem creditAll_id (writes : List Write) (s : Source) : (creditAll writes s).id = s.id :=
  creditAll_same Source.id (fun w _ => w.onSource_id) s

theorem creditAll_status (writes : List Write) (s : Source) :
    (creditAll writes s).status = s.status :=
  creditAll_same Source.status (fun w _ => w.onSource_status) s

variable {id : String} {l : List Source}

/-- Crediting a source changes no id. -/
theorem map_id_credit {f : Source → Source} (same : ∀ s, (f s).id = s.id) (id : String)
    (l : List Source) :
    (l.map fun s => if s.id = id then f s else s).map Source.id = l.map Source.id := by
  rw [List.map_map]
  apply List.map_congr_left
  intro s _
  rw [Function.comp_apply]
  split_ifs
  · exact same s
  · rfl

theorem onSources_of_credits {w : Write} (h : w.Credits id) (ids : (l.map Source.id).Nodup)
    (mem : id ∈ l.map Source.id) :
    w.onSources l = some (l.map fun s => if s.id = id then w.onSource s else s) := by
  have same : l.map (fun s => if s.id = id then s else s) = l := by
    simp only [ite_self, List.map_id']
  cases w with
  | insertEventReport | deleteEventReport | insertAggregateReport => exact congrArg some same.symm
  | setSourceStatus | setTriggerStatus | insertAttribution => cases h
  | setEventDedupKeys | setAggregateDedupKeys | setContributions | setReportSpec =>
    cases h
    exact (modifyKey?_of_nodup ids).trans (if_pos mem)

theorem foldlM_onSources_of_credits {writes : List Write} (h : ∀ w ∈ writes, w.Credits id)
    (ids : (l.map Source.id).Nodup) (mem : id ∈ l.map Source.id) :
    writes.foldlM (fun l w => w.onSources l) l =
      some (l.map fun s => if s.id = id then creditAll writes s else s) := by
  induction writes generalizing l with
  | nil =>
    simp only [creditAll, List.foldl_nil, ite_self, List.map_id', List.foldlM_nil]
    rfl
  | cons w rest ih =>
    obtain ⟨first, others⟩ := List.forall_mem_cons.1 h
    have keeps := map_id_credit w.onSource_id id l
    rw [List.foldlM_cons, onSources_of_credits first ids mem]
    refine (ih others (keeps ▸ ids) (keeps ▸ mem)).trans ?_
    rw [List.map_map]
    congr 1
    apply List.map_congr_left
    intro s _
    rw [Function.comp_apply]
    by_cases found : s.id = id
    · rw [if_pos found, if_pos ((w.onSource_id s).trans found), if_pos found]
      rfl
    · rw [if_neg found, if_neg found, if_neg found]

theorem onSources_setSourceStatus {keys : List String} {status : SourceStatus} {l' : List Source}
    (ids : (l.map Source.id).Nodup) (h : (setSourceStatus keys status).onSources l = some l') :
    l' = l.map fun s => if s.id ∈ keys then { s with status } else s :=
  eq_of_foldlM_modifyKey? (fun _ => by rfl) (fun _ => by rfl) ids h

theorem onTriggers_setTriggerStatus {triggers triggers' : List Trigger} {status : TriggerStatus}
    (ids : (triggers.map Trigger.id).Nodup)
    (h : (setTriggerStatus [id] status).onTriggers triggers = some triggers') :
    triggers' = triggers.map fun t => if t.id = id then { t with status } else t := by
  rw [eq_of_foldlM_modifyKey? (fun _ => by rfl) (fun _ => by rfl) ids h]
  simp only [List.mem_singleton]

end Write

end AttributionReporting
