import MaxScaleSystemTest.CdcClient.Mailbox

namespace MaxScaleSystemTest.CdcClient

open Runs

/-!
# Records that are read in one piece

When the preamble takes two reads and every further read gets all that the listener has sent,
`cdc_com` goes on to the next value only when the last one is in the table.

* `Synced` — the listener, the table and `inserted_val` agree;
* `stepsMeet_of_wholeReads` — such runs meet the conditions of a good run.
-/

/-- The first read leaves something of the preamble, and the others get everything that has
    been sent; `cdc_com` finds the value 10 where it has put it. -/
def WholeReads (s : State) : Action → Prop
  | .read n => if s.ignoreFirst = 2 then n < s.socket.length else n = s.socket.length
  | .copy => s.insertVal = 10
  | _ => True

/-- The record of `v` has not been sent and all others have been read, or it is the only one
    that may be unread. -/
def OnWay (v w : ℤ) (s : State) : Prop :=
  v ≤ w ∧ ((s.sent = (v - 10).toNat ∧ s.socket = []) ∨ (s.sent = (v - 9).toNat ∧ w = v + 1))

/-- What holds in every state of a run with whole reads. -/
inductive Synced (max : ℤ) (s : State) : Prop where
  | ignoring (hcom : s.com = .waiting) (hexit : s.exitFlag = false)
      (hfirst : s.ignoreFirst = 1 ∨ s.ignoreFirst = 2) (hinserted : s.insertedVal = 0)
      (hval : s.insertVal = 0) (hquery : s.query = .test) (hrows : s.rows = [])
      (hsent : s.sent = 0)
  | starting (hcom : s.com = .starting) (hexit : s.exitFlag = false) (hfirst : s.ignoreFirst = 0)
      (w : ℤ) (hrows : s.rows = rowsTo w) (hprogress : Progress max 10 s.insertVal s.query w)
      (hway : OnWay 10 w s)
  | running (hcom : s.com = .waiting) (hexit : s.exitFlag = false) (hfirst : s.ignoreFirst = 0)
      (hlow : 10 ≤ s.insertedVal) (hhigh : s.insertedVal ≤ max) (w : ℤ)
      (hrows : s.rows = rowsTo w)
      (hprogress : Progress max s.insertedVal s.insertVal s.query w)
      (hway : OnWay s.insertedVal w s)
  | left (hcom : s.com = .left)

theorem start_synced (l : Listener) (max : ℤ) : Synced max (.start l) :=
  .ignoring rfl rfl (.inr rfl) rfl rfl rfl rfl rfl

theorem Progress.le_succ {max v val w : ℤ} {query : Query} (h : Progress max v val query w) :
    w ≤ v + 1 := by
  cases h <;> omega

/-- A value whose row is in the table has left the mailbox and the thread. -/
theorem Progress.of_succ {max v val : ℤ} {query : Query} (h : Progress max v val query (v + 1))
    (hlt : v < max) : val = 0 ∧ query = .test := by
  generalize hw : v + 1 = w at h
  cases h with
  | inserted => exact ⟨rfl, rfl⟩
  | fresh | tested | halfRead | read | cleared | behind | lost | lostCleared => omega
  | lostInserted hlast | exited _ _ hlast => omega

/-- No earlier value is on its way. -/
theorem Progress.not_holdsBelow {max val w : ℤ} {query : Query} (h : Progress max max val query w)
    (hw : max ≤ w) : ¬ query.holdsBelow max := by
  cases h with
  | read | cleared => simp [Query.holdsBelow]
  | fresh | tested | halfRead | inserted | lostInserted | exited => simp [Query.holdsBelow]
  | behind | lost | lostCleared => omega

theorem length_rowsTo (w : ℤ) : (rowsTo w).length = (w - 10).toNat := by
  rw [rowsTo, List.length_map, List.length_range]

/-- The listener sends the record of `v` next, and only once. -/
theorem OnWay.send {v w : ℤ} {s : State} (h : OnWay v w s) (hv : 10 ≤ v) (hw : w ≤ v + 1)
    (hrows : s.rows = rowsTo w) (hsome : s.sent < s.rows.length) (rest : CString.Bytes) :
    OnWay v w { s with sent := s.sent + 1, socket := rest } := by
  rw [hrows, length_rowsTo] at hsome
  obtain ⟨hle, ⟨hsent, -⟩ | ⟨hsent, rfl⟩⟩ := h
  · refine ⟨hle, .inr ⟨?_, ?_⟩⟩
    · show s.sent + 1 = (v - 9).toNat
      omega
    · omega
  · omega

/-- A step of `query_thread` sends nothing. -/
theorem OnWay.query {v w w' : ℤ} {s s' : State} (h : OnWay v w s) (hle : w ≤ w')
    (hw' : w' ≤ v + 1) (hframe : QueryFrame s s') : OnWay v w' s' := by
  unfold OnWay
  rw [hframe.sent, hframe.socket]
  refine ⟨h.1.trans hle, h.2.imp_right fun hsent => ⟨hsent.1, ?_⟩⟩
  have hw := hsent.2
  omega

/-! ### The steps -/

/-- A read that gets a whole record finds the mailbox empty. -/
theorem read_synced {max : ℤ} {s : State} {n : ℕ} (h : Synced max s) (hcom : s.com = .waiting)
    (hlt : s.insertedVal < max) (hpos : 0 < n)
    (hwhole : if s.ignoreFirst = 2 then n < s.socket.length else n = s.socket.length) :
    Good max s (.read n) ∧ Synced max (gotData { s with socket := s.socket.drop n }) := by
  cases h with
  | ignoring _ hexit hfirst hinserted hval hquery hrows hsent =>
    refine ⟨fun hzero => by omega, ?_⟩
    unfold gotData
    rw [if_pos (by dsimp only; omega)]
    dsimp only
    rcases hfirst with hone | htwo
    · -- the rest of the preamble: the first value
      have hdrop : s.socket.drop n = [] := by
        rw [hone] at hwhole
        exact List.drop_of_length_le hwhole.ge
      rw [if_pos (by omega)]
      have hway : OnWay 10 10 { s with socket := s.socket.drop n } :=
        ⟨le_refl 10, .inl ⟨hsent, hdrop⟩⟩
      refine .starting rfl hexit (by dsimp only; omega) 10 hrows ?_ hway
      rw [hquery]
      exact .fresh
    · rw [if_neg (by omega)]
      exact .ignoring hcom hexit (.inl (by dsimp only; omega)) hinserted hval hquery hrows hsent
  | running _ hexit hfirst hlow hhigh w hrows hprogress hway =>
    rw [if_neg (by omega)] at hwhole
    obtain ⟨-, ⟨-, hempty⟩ | ⟨hsent, rfl⟩⟩ := hway
    · rw [hwhole, hempty] at hpos
      exact absurd hpos (Nat.lt_irrefl 0)
    · -- the record that is read is that of the value in the table
      obtain ⟨hval, hquery⟩ := hprogress.of_succ hlt
      have hgood : Good max s (.read n) := fun _ => .inl ⟨hval, by rw [hquery]; rfl⟩
      refine ⟨hgood, ?_⟩
      have hnext := hprogress.advance hlow hlt (hgood hfirst)
      unfold gotData
      rw [if_neg (by dsimp only; omega)]
      refine .running hcom hexit hfirst (by dsimp only; omega) hlt _ hrows hnext ?_
      refine ⟨le_refl _, .inl ⟨?_, ?_⟩⟩
      · dsimp only
        omega
      · exact List.drop_of_length_le hwhole.ge
  | starting hcom' | left hcom' => simp [hcom'] at hcom

theorem query_synced {max : ℤ} {s s' : State} (h : Synced max s)
    (hstep : queryThread s = some s') : Synced max s' := by
  have hframe := queryThread_frame hstep
  cases h with
  | ignoring _ hexit _ _ hval hquery =>
    -- there is no value yet
    simp [queryThread, hquery, hexit, hval] at hstep
  | starting hcom hexit hfirst w hrows hprogress hway =>
    obtain ⟨w', hle, hrows', hprogress'⟩ :=
      hprogress.queryThread (le_refl 10) hrows (by simp [hexit]) hstep
    exact .starting (hframe.com.trans hcom) (hframe.exitFlag.trans hexit)
      (hframe.ignoreFirst.trans hfirst) w' hrows' hprogress'
      (hway.query hle hprogress'.le_succ hframe)
  | running hcom hexit hfirst hlow hhigh w hrows hprogress hway =>
    obtain ⟨w', hle, hrows', hprogress'⟩ :=
      hprogress.queryThread hlow hrows (by simp [hexit]) hstep
    have hway' := hway.query hle hprogress'.le_succ hframe
    rw [← hframe.insertedVal] at hlow hhigh hprogress' hway'
    exact .running (hframe.com.trans hcom) (hframe.exitFlag.trans hexit)
      (hframe.ignoreFirst.trans hfirst) hlow hhigh w' hrows' hprogress' hway'
  | left hcom => exact .left (hframe.com.trans hcom)

theorem send_synced {max : ℤ} {s : State} (h : Synced max s) (hsome : s.sent < s.rows.length)
    (rest : CString.Bytes) : Synced max { s with sent := s.sent + 1, socket := rest } := by
  cases h with
  | ignoring _ _ _ _ _ _ hrows =>
    rw [hrows] at hsome
    exact absurd hsome (Nat.not_lt_zero _)
  | starting hcom hexit hfirst w hrows hprogress hway =>
    exact .starting hcom hexit hfirst w hrows hprogress
      (hway.send (le_refl 10) hprogress.le_succ hrows hsome rest)
  | running hcom hexit hfirst hlow hhigh w hrows hprogress hway =>
    exact .running hcom hexit hfirst hlow hhigh w hrows hprogress
      (hway.send hlow hprogress.le_succ hrows hsome rest)
  | left hcom => exact .left hcom

/-- **Step.** A step with whole reads is good. -/
theorem synced_step {l : Listener} {max : ℤ} (hmax : 10 ≤ max) (s : State) (a : Action)
    (s' : State) (h : Synced max s) (hwhole : WholeReads s a) (hstep : step l max s a = some s') :
    Good max s a ∧ Synced max s' := by
  cases a with
  | read n =>
    obtain ⟨⟨hcom, hlt, hpos, -⟩, hs'⟩ := Option.ite_none_right_eq_some.mp hstep
    cases hs'
    exact read_synced h hcom hlt hpos hwhole
  | copy =>
    obtain ⟨hcom, hs'⟩ := Option.ite_none_right_eq_some.mp hstep
    cases hs'
    have hten : s.insertVal = 10 := hwhole
    refine ⟨hten, ?_⟩
    cases h with
    | starting _ hexit hfirst w hrows hprogress hway =>
      refine .running rfl hexit hfirst hten.ge (hten.trans_le hmax) w hrows ?_ ?_
      · dsimp only
        rw [hten] at hprogress ⊢
        exact hprogress
      · dsimp only
        rw [hten]
        exact hway
    | ignoring hcom' | running hcom' | left hcom' => simp [hcom'] at hcom
  | leave =>
    obtain ⟨⟨hcom, hge⟩, hs'⟩ := Option.ite_none_right_eq_some.mp hstep
    cases hs'
    refine ⟨?_, .left rfl⟩
    cases h with
    | ignoring _ _ _ hinserted => exact absurd hmax (by omega)
    | running _ _ _ _ hhigh w _ hprogress hway =>
      -- all values below `max` are in the table
      have hlast : s.insertedVal = max := le_antisymm hhigh (not_lt.mp hge)
      rw [hlast] at hprogress hway
      exact hprogress.not_holdsBelow hway.1
    | starting hcom' | left hcom' => simp [hcom'] at hcom
  | exit =>
    obtain ⟨hcom, hs'⟩ := Option.ite_none_right_eq_some.mp hstep
    cases hs'
    exact ⟨trivial, .left hcom⟩
  | query => exact ⟨trivial, query_synced h hstep⟩
  | send =>
    refine ⟨trivial, ?_⟩
    simp only [step] at hstep
    split at hstep
    · rename_i hrow
      cases hstep
      exact send_synced h (List.getElem?_eq_some_iff.mp hrow).1 _
    · cases hstep

/-- **Runs.** With whole reads every run meets the conditions of a good run. -/
theorem stepsMeet_of_wholeReads (l : Listener) (smoke : Bool) (actions : List Action)
    (h : StepsMeet (step l (maxInsertedVal smoke)) WholeReads (.start l) actions) :
    StepsMeet (step l (maxInsertedVal smoke)) (Good (maxInsertedVal smoke)) (.start l)
      actions :=
  h.mono (synced_step (ten_le_max smoke)) (start_synced l _)

end MaxScaleSystemTest.CdcClient
