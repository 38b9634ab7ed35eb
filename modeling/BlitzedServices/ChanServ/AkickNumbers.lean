import BlitzedServices.ChanServ.AkickRuns

/-!
# The numbers of AKICK

The numbers of a list are 1, 2, ... in the order of the times as long as no nick is dropped that has an entry:
`cs_mysql_remove_nick` deletes the entries of a nick and does not number the rest anew. What becomes of the next entry
then is `removeNick_collides`, and what DEL does to the numbers `akickDel_shifts`.
-/

set_option autoImplicit false
set_option relaxedAutoImplicit false

namespace BlitzedServices.ChanServ

open Lib Misc Mysql

/-! ### Numbers -/

section Numbers

variable {max now : ℕ} {csAutokickMax : BitVec 32} {st st' : AkickState} {channelId nickId : ℕ}
  {mask : Option CString} {columns : AkickColumns} {p : AkickRow → Bool}

/-- The time of an entry. -/
def AkickState.added (st : AkickState) (r : AkickRow) : ℕ := (st.columns r.akickId).added

/-- The numbers of every list count from 1, in the order of the times. -/
structure AkickNumbered (st : AkickState) : Prop where
  numbered : ∀ channelId, akickNumbering.Numbered channelId st.db.akick
  ordered : ∀ channelId, akickNumbering.Ordered st.added channelId st.db.akick

theorem added_of_same (h : SameAkicks st st') : st'.added = st.added := by
  funext r
  rw [AkickState.added, h.columns, AkickState.added]

theorem AkickNumbered.congr (h : AkickNumbered st) (hakick : st'.db.akick = st.db.akick)
    (hadded : ∀ r ∈ st.db.akick, st'.added r = st.added r) : AkickNumbered st' where
  numbered := hakick ▸ h.numbered
  ordered := by
    rw [hakick]
    intro k r hr s hs hlt
    rw [hadded r (akickNumbering.mem_listed.mp hr).1, hadded s (akickNumbering.mem_listed.mp hs).1]
    exact h.ordered k r hr s hs hlt

theorem akicksByTime_perm (st : AkickState) (channelId : ℕ) :
    (akicksByTime st channelId).Perm (akickNumbering.listed channelId st.db.akick) := List.mergeSort_perm _ _

theorem akicksByTime_pairwise (st : AkickState) (channelId : ℕ) :
    (akicksByTime st channelId).Pairwise fun r s ↦ st.added r ≤ st.added s := by
  let le (r s : AkickRow) : Bool := decide (st.added r ≤ st.added s)
  have htrans (r s t : AkickRow) (hrs : le r s = true) (hst : le s t = true) : le r t = true :=
    decide_eq_true ((of_decide_eq_true hrs).trans (of_decide_eq_true hst))
  have htotal (r s : AkickRow) : (le r s || le s r) = true := by
    rw [Bool.or_eq_true]
    exact (le_total (st.added r) (st.added s)).imp decide_eq_true decide_eq_true
  exact (List.pairwise_mergeSort htrans htotal (listedAkicks st.db channelId)).imp of_decide_eq_true

theorem AkickKept.rows_nodup (h : AkickKept max st) : st.db.akick.Nodup := List.Nodup.of_map _ h.nodup

/-- Whole lists are dropped. -/
theorem AkickNumbered.drops (h : AkickNumbered st) {db : Database} (hdrops : DropsLists st.db db)
    (hakick : st'.db.akick = db.akick) (hcolumns : st'.columns = st.columns) : AkickNumbered st' := by
  obtain ⟨ids, hids, -⟩ := hdrops
  rw [hids] at hakick
  have hlisted (k : ℕ) : akickNumbering.listed k st'.db.akick = [] ∨
      akickNumbering.listed k st'.db.akick = akickNumbering.listed k st.db.akick := by
    rw [hakick, Numbering.listed_filter]
    by_cases hk : k ∈ ids
    · refine .inl (List.filter_eq_nil_iff.mpr fun r hr ↦ ?_)
      have hchannel : r.channelId = k := (akickNumbering.mem_listed.mp hr).2
      simpa [hchannel] using hk
    · refine .inr (List.filter_eq_self.mpr fun r hr ↦ ?_)
      have hchannel : r.channelId = k := (akickNumbering.mem_listed.mp hr).2
      simpa [hchannel] using hk
  have hadded : st'.added = st.added := by
    funext r
    rw [AkickState.added, hcolumns, AkickState.added]
  refine ⟨fun k ↦ ?_, fun k ↦ ?_⟩
  · rcases hlisted k with hnil | hsame
    · exact akickNumbering.numbered_nil_of hnil
    · rw [Numbering.Numbered, hsame]
      exact h.numbered k
  · rw [Numbering.Ordered, hadded]
    rcases hlisted k with hnil | hsame
    · rw [hnil]
      exact fun _ hr ↦ absurd hr List.not_mem_nil
    · rw [hsame]
      exact h.ordered k

theorem AkickNumbered.adds (h : AkickNumbered st) (hkept : AkickKept max st)
    (hadds : Adds max now st st' channelId nickId mask columns) (hclock : ∀ r ∈ st.db.akick, st.added r ≤ now) :
    AkickNumbered st' := by
  have hold (r : AkickRow) (hr : r ∈ st.db.akick) : st'.added r = st.added r := by
    rw [AkickState.added, hadds.columns, Function.update_of_ne (hkept.fresh r hr).ne, AkickState.added]
  set new : AkickRow := ⟨st.nextId, channelId, chanakickCount st.db channelId + 1, maskColumn mask, nickId⟩ with hrow
  have hnew : st'.added new = now := by
    rw [AkickState.added, hadds.columns, Function.update_self, hadds.added]
  refine ⟨fun k ↦ ?_, fun k ↦ ?_⟩
  · rw [hadds.akick]
    exact (h.numbered k).append fun hk ↦ by rw [← hk]; rfl
  · rw [hadds.akick]
    by_cases hk : channelId = k
    · refine Numbering.Ordered.append ?_ ?_
      · intro r hr s hs hlt
        rw [hold r (akickNumbering.mem_listed.mp hr).1, hold s (akickNumbering.mem_listed.mp hs).1]
        exact h.ordered k r hr s hs hlt
      · intro s hs
        have hrow := (akickNumbering.mem_listed.mp hs).1
        rw [hold s hrow, hnew]
        refine ⟨hclock s hrow, ?_⟩
        have hle := (((h.numbered k).mem_iff _).mp ⟨s, hs, rfl⟩).2
        refine hle.trans ?_
        rw [← hk]
        exact Nat.le_succ _
    · have hlisted : akickNumbering.listed k (st.db.akick ++ [new]) = akickNumbering.listed k st.db.akick := by
        have hnone : akickNumbering.listed k [new] = [] :=
          List.filter_cons_of_neg (by rw [decide_eq_true_iff]; exact hk)
        rw [Numbering.listed_append, hnone, List.append_nil]
      intro r hr s hs hlt
      rw [hlisted] at hr hs
      rw [hold r (akickNumbering.mem_listed.mp hr).1, hold s (akickNumbering.mem_listed.mp hs).1]
      exact h.ordered k r hr s hs hlt

theorem listed_deleteAkicks_of_ne {k : ℕ} (hk : k ≠ channelId) :
    akickNumbering.listed k (deleteAkicks st channelId p).1.db.akick = akickNumbering.listed k st.db.akick := by
  rw [deleteAkicks]
  refine (Numbering.listed_filter ..).trans (List.filter_eq_self.mpr fun r hr ↦ ?_)
  have hchannel : r.channelId = k := (akickNumbering.mem_listed.mp hr).2
  simp [hchannel, hk]

theorem AkickNumbered.deletes (h : AkickNumbered st) (hkept : AkickKept max st)
    (hdel : Deletes st st' channelId p) : AkickNumbered st' := by
  rw [hdel.state]
  have hkept' : AkickKept max (deleteAkicks st channelId p).1 := hkept.filter rfl rfl
  have hperm := akicksByTime_perm (deleteAkicks st channelId p).1 channelId
  refine ⟨fun k ↦ ?_, fun k ↦ ?_⟩
  · rw [akick_renumberAkicks]
    refine Numbering.numbered_renumber_all hkept'.rows_nodup hperm (fun j hj ↦ ?_) k
    rw [Numbering.Numbered, listed_deleteAkicks_of_ne hj]
    exact h.numbered j
  · rw [akick_renumberAkicks]
    have hkey (n : ℕ) (r : AkickRow) : st.added (akickNumbering.setIdx n r) = st.added r := rfl
    refine Numbering.ordered_renumber_all hkey hperm
      (akicksByTime_pairwise (deleteAkicks st channelId p).1 channelId) (fun j hj ↦ ?_) k
    rw [Numbering.Ordered, listed_deleteAkicks_of_ne hj]
    exact h.ordered j

theorem added_updateAkickLastUsed (st : AkickState) (akickId now : ℕ) (lastMatched : CString) (r : AkickRow) :
    (updateAkickLastUsed st akickId now lastMatched).added r = st.added r := by
  rw [AkickState.added, AkickState.added, updateAkickLastUsed]
  dsimp only
  rw [Function.update_apply]
  split_ifs with hid
  · rw [hid]
  · rfl

/-- What a message needs for the numbers: the clock does not go back, and a nick that is dropped has no entries. -/
def AkickState.Meets (st : AkickState) : AkickMessage → Prop
  | .akick now .. => ∀ r ∈ st.db.akick, st.added r ≤ now
  | .removeNick nickId => ∀ r ∈ st.db.akick, r.nickId ≠ nickId
  | .used .. | .delchan .. | .write .. => True

theorem receive_numbered {m : AkickMessage} (hkept : AkickKept csAutokickMax.toNat st) (h : AkickNumbered st)
    (hmeets : st.Meets m) (hstep : st.receive csAutokickMax m = some st') : AkickNumbered st' := by
  cases m with
  | akick now u line =>
    obtain ⟨⟨reply, _⟩, hakick, rfl⟩ := Option.map_eq_some_iff.mp hstep
    rcases doAkick_effect hakick with ⟨-, hsame⟩ | ⟨chan, -, st₁, -, -, hsame, heffect⟩
    · exact h.congr hsame.akick fun r _ ↦ congrFun (added_of_same hsame) r
    · have h₁ : AkickNumbered st₁ := h.congr hsame.akick fun r _ ↦ congrFun (added_of_same hsame) r
      have hkept₁ := hkept.congr hsame.akick hsame.nextId
      cases heffect with
      | same hreply hsame => exact h₁.congr hsame.akick fun r _ ↦ congrFun (added_of_same hsame) r
      | adds hadds =>
        refine h₁.adds hkept₁ hadds ?_
        rw [hsame.akick, added_of_same hsame]
        exact hmeets
      | deletes hreply hdel => exact h₁.deletes hkept₁ hdel
  | used akickId now lastMatched =>
    exact Option.some.inj hstep ▸ h.congr rfl fun r _ ↦ added_updateAkickLastUsed st akickId now lastMatched r
  | delchan channelId => exact Option.some.inj hstep ▸ h.drops (dropsLists_mysqlDelchan st.db channelId) rfl rfl
  | removeNick nickId =>
    have hdrops := dropsLists_passChannels st.db nickId
    have hsame : (csMysqlRemoveNick st.db nickId).akick = (passChannels st.db nickId).akick := by
      obtain ⟨ids, hakick, -⟩ := hdrops
      rw [akick_csMysqlRemoveNick, hakick]
      exact List.filter_eq_self.mpr fun r hr ↦ by simpa using hmeets r (List.mem_of_mem_filter hr)
    exact Option.some.inj hstep ▸ h.drops hdrops hsame rfl
  | write db => exact Option.some.inj hstep ▸ h.congr rfl fun _ _ ↦ rfl

/-- From an empty table on, in every state of a run in which the clock does not go back and no nick is dropped that has
an entry, the numbers of each list are 1, 2, ... in the order of the times. -/
theorem akick_numbered_run (hempty : st.db.akick = []) (messages : List AkickMessage)
    (hmeets : AlongM (AkickState.receive csAutokickMax) AkickState.Meets st messages)
    (hrun : messages.foldlM (AkickState.receive csAutokickMax) st = some st') : AkickNumbered st' := by
  have hstart : AkickNumbered st := by
    refine ⟨fun k ↦ akickNumbering.numbered_nil_of ?_, fun k r hr ↦ ?_⟩
    · rw [hempty]
      rfl
    · rw [hempty] at hr
      exact absurd hr List.not_mem_nil
  have hstep (s s' : AkickState) (m : AkickMessage) (hs : AkickKept csAutokickMax.toNat s ∧ AkickNumbered s)
      (hok : s.Meets m) (hreceive : s.receive csAutokickMax m = some s') :
      AkickKept csAutokickMax.toNat s' ∧ AkickNumbered s' :=
    ⟨receive_kept hs.1 hreceive, receive_numbered hs.1 hs.2 hok hreceive⟩
  exact (hmeets.of_foldlM (fun s m s' hs hok hreceive ↦ hstep s s' m hs hok hreceive)
    ⟨akickKept_of_empty hempty, hstart⟩ hrun).2

theorem akick_numbered_run_twoAdds : ∃ st', twoAdds.foldlM (AkickState.receive 20) (akickSample []) = some st' ∧
    AkickNumbered st' := by
  have hsome : (twoAdds.foldlM (AkickState.receive 20) (akickSample [])).isSome = true := by decide +kernel
  obtain ⟨st', hrun⟩ := Option.isSome_iff_exists.mp hsome
  have hempty : (akickSample []).db.akick = [] := rfl
  have hmeets : AlongM (AkickState.receive 20) AkickState.Meets (akickSample []) twoAdds := by
    refine ⟨fun _ hr ↦ absurd hr List.not_mem_nil, fun st₁ hst₁ ↦ ⟨?_, fun _ _ ↦ trivial⟩⟩
    have hfirst : st₁ = ((akickSample []).receive 20 (.akick 5 listKeeper "#a ADD bo".toList)).getD (akickSample []) := by
      rw [hst₁]
      rfl
    rw [hfirst]
    unfold AkickState.Meets
    decide +kernel
  exact ⟨st', hrun, akick_numbered_run hempty twoAdds hmeets hrun⟩

end Numbers

/-! ### Gaps -/

section Gaps

variable {env : AkickEnv} {st st' : AkickState} {channelId nickId : ℕ} {mask : CString} {reason : Option CString}
  {u : AccessUser} {verbose : Bool} {reply : AkickReply}

/-- A nick is dropped, and then somebody puts an entry on the list of a channel. The numbers of the list count from 1 again
exactly when the entries of the nick were the last ones on it; else two entries have the same number. -/
theorem removeNick_collides (hnumbered : AkickNumbered st) {line chan : CString}
    {rest : CString × Option CString × Option CString} (hline : akickWords line = some (chan, rest))
    (hadd : doAkick env u { st with db := csMysqlRemoveNick st.db nickId } line = some (.CHAN_AKICK_ADDED, st'))
    (hchan : mysqlFindchan (csMysqlRemoveNick st.db nickId) chan = channelId) :
    akickNumbering.Numbered channelId st'.db.akick ↔ ∀ r ∈ listedAkicks st.db channelId,
      r.nickId ≠ nickId ↔ r.idx ≤ chanakickCount (csMysqlRemoveNick st.db nickId) channelId := by
  rcases doAkick_effect hadd with ⟨hne, -⟩ | ⟨chan', rest', st₁, hline', hregistered, hsame, heffect⟩
  · exact absurd rfl hne
  obtain ⟨rfl, -⟩ := Prod.mk.inj (Option.some.inj (hline.symm.trans hline'))
  dsimp only at hregistered heffect hsame
  rw [hchan] at hregistered heffect
  -- the channel is still registered, so its list was not dropped
  obtain ⟨ids, hakick, hleft⟩ := dropsLists_passChannels st.db nickId
  obtain ⟨c, hc, hid⟩ := exists_row_of_mysqlFindchan_ne_zero (hchan.symm ▸ hregistered)
  obtain ⟨c', hc', hsameId⟩ := List.mem_map.mp hc
  have hkept : channelId ∉ ids := by
    have hnot := (hleft c' hc').1
    rwa [← hchan, ← hid, ← hsameId, apply_ite ChannelRow.channelId, ite_self]
  have hlisted : akickNumbering.listed channelId (csMysqlRemoveNick st.db nickId).akick =
      akickNumbering.listed channelId (st.db.akick.filter (·.nickId ≠ nickId)) := by
    rw [akick_csMysqlRemoveNick, hakick, Numbering.listed_filter, Numbering.listed_filter, Numbering.listed_filter]
    congr 1
    refine List.filter_eq_self.mpr fun r hr ↦ ?_
    have howner : r.channelId = channelId := (akickNumbering.mem_listed.mp hr).2
    simpa [howner] using hkept
  cases heffect with
  | same hreply => exact absurd rfl hreply
  | deletes hreply => exact absurd rfl hreply
  | adds hadds =>
    rename_i newNick newMask columns
    set new : AkickRow := ⟨st₁.nextId, channelId, chanakickCount st₁.db channelId + 1, maskColumn newMask, newNick⟩
    have hcount : chanakickCount st₁.db channelId = chanakickCount (csMysqlRemoveNick st.db nickId) channelId := by
      rw [chanakickCount, listedAkicks, hsame.akick]
      rfl
    have hboth : akickNumbering.Numbered channelId st'.db.akick ↔
        akickNumbering.Numbered channelId (st.db.akick.filter (·.nickId ≠ nickId) ++ [new]) := by
      rw [Numbering.Numbered, Numbering.Numbered, hadds.akick, hsame.akick, Numbering.listed_append,
        Numbering.listed_append, hlisted]
    have hidx : akickNumbering.idx new =
        (akickNumbering.listed channelId (st.db.akick.filter (·.nickId ≠ nickId))).length + 1 := by
      rw [← hlisted]
      exact congrArg (· + 1) hcount
    rw [hboth, Numbering.numbered_append_filter_iff (hnumbered.numbered channelId) rfl hidx, ← hlisted]
    exact forall₂_congr fun r _ ↦ by rw [decide_eq_true_iff]; rfl

theorem akickNumbered_twoEntries : AkickNumbered twoEntries := by
  have hlisted (k : ℕ) (hk : k ≠ 7) : akickNumbering.listed k twoEntries.db.akick = [] := by
    refine List.filter_eq_nil_iff.mpr fun r hr hchannel ↦ hk ?_
    rw [← of_decide_eq_true hchannel]
    rcases List.mem_cons.mp hr with rfl | hr
    · rfl
    · rw [List.mem_singleton.mp hr]
      rfl
  refine ⟨fun k ↦ ?_, fun k r hr s hs hlt ↦ ?_⟩
  · by_cases hk : k = 7
    · rw [hk, Numbering.Numbered]
      decide +kernel
    · exact akickNumbering.numbered_nil_of (hlisted k hk)
  · obtain ⟨hr, -⟩ := akickNumbering.mem_listed.mp hr
    obtain ⟨hs, -⟩ := akickNumbering.mem_listed.mp hs
    rcases List.mem_cons.mp hr with rfl | hr <;> rcases List.mem_cons.mp hs with rfl | hs
    · exact le_rfl
    · rw [List.mem_singleton.mp hs]
      decide
    · rw [List.mem_singleton.mp hr] at hlt
      exact absurd hlt (by decide)
    · rw [List.mem_singleton.mp hr, List.mem_singleton.mp hs]

/-- The nick with the first of two entries is dropped. -/
theorem removeNick_collides_twoEntries : ∃ st', doAkick ⟨20, 5⟩ listKeeper
    { twoEntries with db := csMysqlRemoveNick twoEntries.db 2 } "#a ADD *!*@c".toList = some (.CHAN_AKICK_ADDED, st') ∧
      ¬ akickNumbering.Numbered 7 st'.db.akick := by
  have hadded : (doAkick ⟨20, 5⟩ listKeeper { twoEntries with db := csMysqlRemoveNick twoEntries.db 2 }
      "#a ADD *!*@c".toList).map Prod.fst = some .CHAN_AKICK_ADDED := by decide +kernel
  obtain ⟨⟨reply, st'⟩, hadd, hreply⟩ := Option.map_eq_some_iff.mp hadded
  obtain rfl : reply = .CHAN_AKICK_ADDED := hreply
  have hline : akickWords "#a ADD *!*@c".toList = some ("#a".toList, "ADD".toList, some "*!*@c".toList, none) := by
    decide +kernel
  have hchan : mysqlFindchan (csMysqlRemoveNick twoEntries.db 2) "#a".toList = 7 := by decide +kernel
  refine ⟨st', hadd, fun hnumbered ↦ ?_⟩
  have hlast := (removeNick_collides akickNumbered_twoEntries hline hadd hchan).mp hnumbered
    ⟨2, 7, 2, some "*!*@b".toList, 0⟩ (by decide +kernel)
  exact absurd (hlast.mp (by decide)) (by decide +kernel)

end Gaps

end BlitzedServices.ChanServ
