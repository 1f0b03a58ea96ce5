import GChat.Archive.Run

/-!
# Accepted sends and opened conversations

A send has two halves with the SDK call between them, and other sections of the
archive may run there. `Client` keeps the archive, the sends the SDK has
accepted and that are not recorded yet, and everything returned so far.
`Returned.Kept` says what a caller may expect of a result: an opened
conversation is active, and an accepted send returns `ok` with its message in
the conversation. `Ready` is the exact condition on each step for that.
-/

namespace GChat

namespace Archive

open Foundation

/-- The private conversation of a key. -/
def scopedPm (data : ArchiveData) (id : ScopedPmId) : Option ScopedPmRecord :=
  data.scopedPms.find? fun p => p.id == id

/-- A result, with the archive as it was when the call returned. -/
inductive Returned where
  | opened (id : ScopedPmId) (after : ArchiveData)
  | sent (send : PendingSend) (after : Except String ArchiveData)

structure Client where
  data : ArchiveData
  pending : List PendingSend
  returned : List Returned

def Client.create (daemonSafetyNumber : String) : Client :=
  ⟨ArchiveData.create daemonSafetyNumber, [], []⟩

inductive ClientOp where
  | archive (op : Op)
  | openScopedPm (channelId : ChannelId) (remote : MemberId)
  | acceptChannel (id : ChannelId) (out : Outgoing)
  | acceptScopedPm (id : ScopedPmId) (out : Outgoing)
  | record (n : ℕ)

def Client.step (s : Client) : ClientOp → Client
  | .archive op => { s with data := op.apply s.data }
  | .openScopedPm channelId remote =>
      match Archive.openScopedPm s.data channelId remote with
      | .error _ => s
      | .ok (id, data) => { s with data := data, returned := s.returned ++ [.opened id data] }
  | .acceptChannel id out =>
      match channelFor s.data id with
      | .error _ => s
      | .ok _ => { s with pending := s.pending ++ [.channel id out] }
  | .acceptScopedPm id out =>
      match channelFor s.data id.channelId with
      | .error _ => s
      | .ok record => { s with pending := s.pending ++ [.scopedPm id record out] }
  | .record n =>
      match s.pending[n]? with
      | none => s
      | some send =>
          let after := send.record s.data
          { data := after.toOption.getD s.data
            pending := s.pending.eraseIdx n
            returned := s.returned ++ [.sent send after] }

/-- The message of a send stands in its conversation. -/
def PendingSend.HeldBy (data : ArchiveData) : PendingSend → Prop
  | .channel id out => ∃ c ∈ data.channels, c.active = true ∧ c.id = id ∧
      ∃ m ∈ c.messages, out.IsCopy m
  | .scopedPm id _ out => ∃ p ∈ data.scopedPms, p.active = true ∧ p.id = id ∧
      ∃ m ∈ p.messages, out.IsCopy m

def Returned.Kept : Returned → Prop
  | .opened id after => ∃ p, scopedPm after id = some p ∧ p.active = true
  | .sent send after => ∃ data, after = .ok data ∧ send.HeldBy data

/-- No conversation stands inactive under a key that is opened, and the
conversation of a send is active when its message is recorded. -/
def Ready (s : Client) : ClientOp → Prop
  | .openScopedPm channelId remote => ∀ record self member,
      channel s.data channelId = some record → record.selfMemberId = some self →
      (record.members.find? fun m => m.id == remote && !m.isSelf) = some member →
      ∀ p, scopedPm s.data ⟨channelId, self, remote⟩ = some p → p.active = true
  | .record n => ∀ send, s.pending[n]? = some send → send.Ready s.data
  | _ => True

/-! ### Opening -/

theorem mem_ids_of_scopedPm {data : ArchiveData} {id : ScopedPmId} {p : ScopedPmRecord}
    (h : scopedPm data id = some p) : id ∈ data.scopedPms.map (·.id) := by
  have hid := List.find?_some h
  rw [beq_iff_eq] at hid
  exact List.mem_map.mpr ⟨p, List.mem_of_find?_eq_some h, hid⟩

/-- The conversation found under a key that is ensured: the old one, or a new one. -/
theorem scopedPm_ensurePm (data : ArchiveData) (id : ScopedPmId) (name : String) :
    scopedPm { data with scopedPms := ensurePm data.scopedPms id name } id =
      some ((scopedPm data id).getD (ScopedPmRecord.create id name)) := by
  unfold scopedPm
  cases hfind : data.scopedPms.find? fun p => p.id == id with
  | none =>
      have hid : id ∉ data.scopedPms.map (·.id) := by
        intro hmem
        obtain ⟨p, hp, hpid⟩ := List.mem_map.mp hmem
        exact List.find?_eq_none.mp hfind p hp (by simpa using hpid)
      rw [ensurePm_of_not_mem hid, List.find?_append, hfind]
      simp
  | some p => rw [ensurePm_of_mem (mem_ids_of_scopedPm hfind), hfind, Option.getD_some]

/-! ### Recording -/

theorem copy_mem_append (messages : List Message) (out : Outgoing) (delivery : Delivery)
    (sender : Option MemberId) (name : String) :
    ∃ m ∈ messages ++ [out.message delivery sender name], out.IsCopy m :=
  ⟨_, List.mem_append_right _ (List.mem_singleton_self _), isCopy_message out delivery sender name⟩

theorem held_recordChannelSend_iff (data : ArchiveData) (id : ChannelId) (out : Outgoing) :
    (PendingSend.channel id out).HeldBy (recordChannelSend data id out) ↔
      (PendingSend.channel id out).Ready data := by
  constructor
  · rintro ⟨c, hc, hactive, hid, -⟩
    rcases mem_modifyFirst hc with hc | ⟨d, hd, rfl⟩
    · exact ⟨c, hc, hactive, hid⟩
    · exact ⟨d, List.mem_of_find?_eq_some hd, hactive, hid⟩
  · rintro ⟨c, hc, hactive, hid⟩
    obtain ⟨d, hd, hp⟩ := exists_find?_of_mem (p := fun c => c.active && c.id == id) hc
      (by simp [hactive, hid])
    rw [Bool.and_eq_true, beq_iff_eq] at hp
    exact ⟨_, mem_modifyFirst_of_find? hd, hp.1, hp.2, copy_mem_append d.messages out _ _ _⟩

theorem kept_recordScopedPmSend_iff (data : ArchiveData) (record : ChannelRecord)
    (id : ScopedPmId) (out : Outgoing) :
    (∃ data', recordScopedPmSend data record id out = .ok data' ∧
      (PendingSend.scopedPm id record out).HeldBy data') ↔
      (PendingSend.scopedPm id record out).Ready data := by
  rcases recordScopedPmSend_cases data record id out with ⟨hnone, herr⟩ | ⟨hany, hok⟩
  · refine iff_of_false ?_ ?_
    · rintro ⟨data', hdata', -⟩
      rw [herr] at hdata'
      cases hdata'
    · rintro ⟨p, hp, hactive, hid⟩
      exact List.any_eq_false.mp hnone p hp (by simp [hactive, hid])
  · obtain ⟨p, hp, hpid⟩ := List.any_eq_true.mp hany
    obtain ⟨q, hq, hqid⟩ := exists_find?_of_mem (p := fun p => p.id == id && p.active) hp hpid
    rw [Bool.and_eq_true, beq_iff_eq] at hpid hqid
    exact iff_of_true ⟨_, hok, _, mem_modifyFirst_of_find? hq, hqid.2, hqid.1,
      copy_mem_append q.messages out _ _ _⟩ ⟨p, hp, hpid.2, hpid.1⟩

theorem kept_record_iff (data : ArchiveData) (send : PendingSend) :
    (Returned.sent send (send.record data)).Kept ↔ send.Ready data := by
  cases send with
  | channel id out =>
      rw [← held_recordChannelSend_iff]
      constructor
      · rintro ⟨data', hdata', hheld⟩
        cases hdata'
        exact hheld
      · exact fun hheld => ⟨_, rfl, hheld⟩
  | scopedPm id record out => exact kept_recordScopedPmSend_iff data record id out

/-! ### Runs -/

def Client.AllKept (s : Client) : Prop := ∀ r ∈ s.returned, r.Kept

theorem allKept_create (daemonSafetyNumber : String) :
    (Client.create daemonSafetyNumber).AllKept :=
  fun _ hr => absurd hr List.not_mem_nil

theorem allKept_append {s : Client} (h : s.AllKept) (r : Returned) :
    (∀ r' ∈ s.returned ++ [r], r'.Kept) ↔ r.Kept := by
  constructor
  · exact fun hall => hall r (List.mem_append_right _ (List.mem_singleton_self r))
  · intro hr r' hr'
    rcases List.mem_append.mp hr' with hold | hnew
    · exact h r' hold
    · rw [List.mem_singleton.mp hnew]
      exact hr

/-- A step keeps every promise exactly when it is ready. -/
theorem allKept_step_iff {s : Client} (h : s.AllKept) (op : ClientOp) :
    (s.step op).AllKept ↔ Ready s op := by
  cases op with
  | archive op => exact iff_of_true h trivial
  | openScopedPm channelId remote =>
      rcases openScopedPm_cases s.data channelId remote with ⟨⟨message, herr⟩, hmissing⟩ |
        ⟨record, self, member, hrecord, hself, hmember, hok⟩
      · refine iff_of_true (by simpa only [Client.step, herr] using h) ?_
        intro record self member hrecord hself hmember
        exact nomatch (hmissing record self hrecord hself).symm.trans hmember
      · have hready : Ready s (.openScopedPm channelId remote) ↔
            ∀ p, scopedPm s.data ⟨channelId, self, remote⟩ = some p → p.active = true := by
          constructor
          · exact fun hr => hr record self member hrecord hself hmember
          · intro hp record' self' member' hrecord' hself' _
            cases hrecord.symm.trans hrecord'
            cases hself.symm.trans hself'
            exact hp
        rw [hready]
        simp only [Client.step, hok]
        refine (allKept_append h _).trans ?_
        simp only [Returned.Kept, scopedPm_ensurePm, Option.some.injEq, exists_eq_left']
        cases hpm : scopedPm s.data ⟨channelId, self, remote⟩ with
        | none => simp [ScopedPmRecord.create]
        | some p => simp
  | acceptChannel id out =>
      refine iff_of_true ?_ trivial
      simp only [Client.step]
      split
      · exact h
      · exact h
  | acceptScopedPm id out =>
      refine iff_of_true ?_ trivial
      simp only [Client.step]
      split
      · exact h
      · exact h
  | record n =>
      cases hsend : s.pending[n]? with
      | none => exact iff_of_true (by simpa [Client.step, hsend] using h) (by simp [Ready, hsend])
      | some send =>
          simp only [Client.step, hsend, Ready, Option.some.injEq, forall_eq']
          exact (allKept_append h _).trans (kept_record_iff s.data send)

/-- In a run every opened conversation was active and every accepted send returned
`ok` with its message recorded, exactly when every step of the run was ready. -/
theorem accepted_run_iff (daemonSafetyNumber : String) (ops : List ClientOp) :
    (∀ n, ((ops.take n).foldl Client.step (Client.create daemonSafetyNumber)).AllKept) ↔
      ∀ (n : ℕ) (op : ClientOp), ops[n]? = some op →
        Ready ((ops.take n).foldl Client.step (Client.create daemonSafetyNumber)) op :=
  Machine.forall_take_iff (allKept_create daemonSafetyNumber)
    (fun _ op h => allKept_step_iff h op) ops

def me : RosterMember := ⟨Bytes.fill 32 1, "me", 0, none, true⟩

def peer : RosterMember := ⟨Bytes.fill 32 2, "peer", 1, none, false⟩

/-- A member leaves the room and returns, and the conversation with it is opened and
written to. -/
def returningMember : List ClientOp :=
  [.archive (.dropLost [room.id]), .archive (.mergeChannel room [me, peer] 1),
   .openScopedPm room.id peer.memberId,
   .archive (.rosterChanged "room" [me]), .archive (.rosterChanged "room" [me, peer]),
   .openScopedPm room.id peer.memberId,
   .acceptScopedPm ⟨room.id, me.memberId, peer.memberId⟩ ⟨2, "hello", none, Bytes.fill 16 9⟩,
   .record 0]

def Returned.failed : Returned → Bool
  | .sent _ (.error _) => true
  | _ => false

/-- The conversation opened again stays inactive, and the send to it that was
accepted returns an error. -/
theorem returningMember_not_kept :
    ¬ ∀ ops : List ClientOp, (ops.foldl Client.step (Client.create "")).AllKept := by
  intro h
  have hfailed : (returningMember.foldl Client.step (Client.create "")).returned.any
      Returned.failed = true := by decide
  obtain ⟨r, hr, hrfailed⟩ := List.any_eq_true.mp hfailed
  have hkept := h returningMember r hr
  cases r with
  | opened id after => cases hrfailed
  | sent send after =>
      obtain ⟨data, rfl, -⟩ := hkept
      cases hrfailed

end Archive

end GChat
