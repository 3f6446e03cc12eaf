import ComputePlane.Proofs.Cloud.Memory

/-!
# Calls one after another

What some calls leave of a cloud if nothing comes between them. Each of them can be made to fail, so
of some deletes a part takes effect: the cloud lacks a part of what should be deleted, and is
otherwise as it was (`calls_deleteVolumes`, `call_deleteServer`).
-/

namespace ComputePlane.MemoryCloud

variable {c : MemoryCloud}

/-- The cloud after some calls. -/
def calls (c : MemoryCloud) (cs : List Call) : MemoryCloud :=
  cs.foldl (fun c call => (c.call call).2) c

@[simp] theorem calls_nil (c : MemoryCloud) : c.calls [] = c := rfl

@[simp] theorem calls_cons (c : MemoryCloud) (call : Call) (cs : List Call) :
    c.calls (call :: cs) = (c.call call).2.calls cs := rfl

@[simp] theorem calls_append (c : MemoryCloud) (cs cs' : List Call) :
    c.calls (cs ++ cs') = (c.calls cs).calls cs' :=
  List.foldl_append

/-- What a call answers that has been made `k` times before. -/
def askedAgain (c : MemoryCloud) (call : Call) (k : Nat) : call.Result :=
  ((c.calls (List.replicate k call)).call call).1

/-- Reads leave everything as it is. -/
theorem content_calls {cs : List Call} (h : ∀ call ∈ cs, call.isChange = false) :
    (c.calls cs).content = c.content := by
  induction cs generalizing c with
  | nil => rfl
  | cons call cs ih =>
    rw [calls_cons, ih fun d hd => h d (List.mem_cons_of_mem _ hd)]
    exact (c.answers_call call).eq_of_read (h call List.mem_cons_self)

/-- A call changes nothing, or it is carried out. -/
theorem Answers.unchanged_or_applied {d : MemoryCloud} {call : Call} {r : call.Result}
    (h : Answers c call r d) : d = c ∨ d = (c.apply call).2 := by
  cases h with
  | failed => exact .inl rfl
  | applied h => exact .inr (congrArg Prod.snd h).symm

/-! ## Deletes -/

/-- The cloud without some volumes of a datacenter; their ids are taken off every server. -/
def withoutVolumes (c : MemoryCloud) (dc : String) (ids : List String) : MemoryCloud :=
  { c with
    volumes := c.volumes.filter fun v => ¬(v.datacenter = dc ∧ v.id ∈ ids)
    servers := c.servers.map fun s => { s with volumes := s.volumes.filter (· ∉ ids) } }

def withoutServer (c : MemoryCloud) (id : NodeId) : MemoryCloud :=
  { c with servers := c.servers.filter (·.id ≠ id) }

@[simp] theorem withoutVolumes_nil (c : MemoryCloud) (dc : String) :
    c.withoutVolumes dc [] = c := by
  have hvolumes : c.volumes.filter (fun v => ¬(v.datacenter = dc ∧ v.id ∈ [])) = c.volumes :=
    List.filter_eq_self.mpr (by simp)
  have hlisted : ∀ ids : List String, ids.filter (· ∉ []) = ids := fun ids =>
    List.filter_eq_self.mpr (by simp)
  unfold withoutVolumes
  simp only [hvolumes, hlisted, List.map_id']

theorem withoutVolumes_deleteVolume (c : MemoryCloud) (dc v : String) (ids : List String) :
    (c.deleteVolume ⟨dc, v⟩).withoutVolumes dc ids = c.withoutVolumes dc (v :: ids) := by
  have hvolumes : ∀ w : StoredVolume, ¬(w.datacenter = dc ∧ w.id ∈ ids) ∧
      ¬(w.datacenter = dc ∧ w.id = v) ↔ ¬(w.datacenter = dc ∧ w.id ∈ v :: ids) := by grind
  have hlisted : ∀ u : String, u ∉ ids ∧ u ≠ v ↔ u ∉ v :: ids := by grind
  unfold withoutVolumes deleteVolume
  simp only [List.filter_filter, List.map_map, Function.comp_def, ← Bool.decide_and, hvolumes,
    hlisted]

/-- Of the volumes that should be deleted, some are. -/
theorem calls_deleteVolumes (c : MemoryCloud) (dc : String) (ids : List String) :
    ∃ deleted, deleted.Sublist ids ∧
      (c.calls (ids.map fun v => .deleteVolume ⟨dc, v⟩)).content =
        c.content.withoutVolumes dc deleted := by
  induction ids generalizing c with
  | nil => exact ⟨[], .slnil, (withoutVolumes_nil ..).symm⟩
  | cons v ids ih =>
    obtain ⟨deleted, hsub, hrest⟩ := ih (c.call (.deleteVolume ⟨dc, v⟩)).2
    rw [List.map_cons, calls_cons, hrest]
    rcases (c.answers_call (.deleteVolume ⟨dc, v⟩)).unchanged_or_applied with hd | hd <;> rw [hd]
    · exact ⟨deleted, hsub.cons v, rfl⟩
    · exact ⟨v :: deleted, hsub.cons_cons v, withoutVolumes_deleteVolume ..⟩

/-- A server that should be deleted is, or it is not. -/
theorem call_deleteServer (c : MemoryCloud) (id : NodeId) :
    (c.call (.deleteServer id)).2.content = c.content ∨
      (c.call (.deleteServer id)).2.content = c.content.withoutServer id := by
  rcases (c.answers_call (.deleteServer id)).unchanged_or_applied with hd | hd <;> rw [hd]
  · exact .inl rfl
  · show c.content.deleteServer id = _ ∨ c.content.deleteServer id = _
    unfold deleteServer
    split
    · exact .inl rfl
    · exact .inr rfl

end ComputePlane.MemoryCloud
