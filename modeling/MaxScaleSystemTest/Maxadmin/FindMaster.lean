import MaxScaleSystemTest.Lib.Sole
import MaxScaleSystemTest.Maxadmin.ParamBounds

namespace MaxScaleSystemTest.Maxadmin

open CString

/-!
# Finding the master with `maxadmin`

`find_master_maxadmin` asks for the status of each server in turn and looks for `Master` in it.
It does not look at the return value of `get_maxadmin_param`: for a server without a status
the buffer still has the text of the server before it, or on the first one anything.

* `getMaxadminParam_status` — the text that is searched for one server;
* `masterLoop_spec` — what the whole loop gives;
* `origins_own_iff` — when no server is searched for the status of another;
* `find_master_maxadmin_iff` — which replies give the right answer for the right reason.
-/

/-! ### The function -/

/-- The parameter asked for. -/
def status : Bytes := ascii "Status"

/-- The text looked for. -/
def master : Bytes := ascii "Master"

/-- The loop of `find_master_maxadmin` from server `i` on, over what `show server` prints for
    each (`none` for a NULL pointer from `ssh_maxscale_output`), with the string in `res`;
    `none` when a pointer is used outside its string. -/
def masterLoop : List (Option Bytes) → (i : ℕ) → (res : Bytes) → (found : Bool) →
    (answer : ℤ) → Option ℤ
  | [], _, _, _, answer => some answer
  | reply :: replies, i, res, found, answer =>
    -- the return value is not looked at
    match getMaxadminParam (reply.map sshMaxscaleOutput) status 256 res with
    | none => none
    | some (_, res) =>
      if (strstr res master).isSome then
        masterLoop replies (i + 1) res true (if found then -1 else i)
      else masterLoop replies (i + 1) res found answer

/-- `find_master_maxadmin`; `res` is what its uninitialised buffer holds. -/
def findMasterMaxadmin (replies : List (Option Bytes)) (res : Bytes) : Option ℤ :=
  masterLoop replies 0 res false (-1)

/-- The texts that `masterLoop` searches, one for each server.  With each goes the server it
    is the status of: the one of this turn if `get_maxadmin_param` has found one, otherwise
    the one whose status `res` still holds, `none` while it holds what it held at the start. -/
def searched : List (Option Bytes) → (i : ℕ) → (res : Bytes) → (origin : Option ℕ) →
    List (Bytes × Option ℕ)
  | [], _, _, _ => []
  | reply :: replies, i, res, origin =>
    match getMaxadminParam (reply.map sshMaxscaleOutput) status 256 res with
    | none => []
    | some (rc, res) =>
      let origin := if rc = 0 then some i else origin
      (res, origin) :: searched replies (i + 1) res origin

/-- What the loop makes of the texts it searches. -/
def pickMaster : List Bytes → (i : ℕ) → (found : Bool) → (answer : ℤ) → ℤ
  | [], _, _, answer => answer
  | text :: texts, i, found, answer =>
    if (strstr text master).isSome then pickMaster texts (i + 1) true (if found then -1 else i)
    else pickMaster texts (i + 1) found answer

/-- **The texts decide.** A loop that comes to its end has searched a text for each server, and
    its answer depends on nothing else. -/
theorem masterLoop_eq_pickMaster {replies : List (Option Bytes)} {i : ℕ} {res : Bytes}
    {found : Bool} {answer r : ℤ} (h : masterLoop replies i res found answer = some r)
    (origin : Option ℕ) :
    (searched replies i res origin).length = replies.length ∧
      r = pickMaster ((searched replies i res origin).map Prod.fst) i found answer := by
  induction replies generalizing i res found answer origin with
  | nil => exact ⟨rfl, (Option.some.inj h).symm⟩
  | cons reply replies ih =>
    unfold masterLoop at h
    unfold searched
    split at h
    · cases h
    · rename_i rc text hget
      simp only [List.length_cons, List.map_cons, pickMaster]
      split at h
      · rename_i hmaster
        obtain ⟨hlength, hr⟩ := ih h (if rc = 0 then some i else origin)
        exact ⟨by rw [hlength], by rw [if_pos hmaster, hr]⟩
      · rename_i hmaster
        obtain ⟨hlength, hr⟩ := ih h (if rc = 0 then some i else origin)
        exact ⟨by rw [hlength], by rw [if_neg hmaster, hr]⟩

/-! ### The replies -/

/-- An output whose status contains `Master`. -/
def HasMaster (output : Bytes) : Prop :=
  ∃ p : ParamLine status, p.output = output ∧ master <:+: p.value

/-- An output without a status. -/
def NoStatus (output : Bytes) : Prop := ¬ status <:+: output

/-- An output that can be read: it has no status, or a line with an empty one, or with one that
    fits into the buffer together with the blanks before it. -/
inductive Readable (output : Bytes) : Prop where
  | noStatus (h : NoStatus output)
  | empty (word blanks rest : Bytes)
      (first : strstr output status = some (status ++ (word ++ (blanks ++ nl :: rest))))
      (hword : ∀ c ∈ word, isspace c = false) (hblanks : ∀ c ∈ blanks, isBlank c = true)
  | line (p : ParamLine status) (houtput : p.output = output)
      (hroom : (p.blanks ++ p.value).length < 256)

theorem noStatus_iff {output : Bytes} : NoStatus output ↔ strstr output status = none := by
  rw [NoStatus, ← strstr_isSome_iff, Bool.not_eq_true, Option.isSome_eq_false_iff,
    Option.isNone_iff_eq_none]

theorem HasMaster.not_noStatus {output : Bytes} (h : HasMaster output) : ¬ NoStatus output := by
  obtain ⟨p, rfl, -⟩ := h
  rw [noStatus_iff, p.strstr_output]
  exact Option.some_ne_none _

/-! ### One server -/

/-- A line with an empty status has no master, as it has no value. -/
theorem not_hasMaster_of_empty {output word blanks rest : Bytes}
    (first : strstr output status = some (status ++ (word ++ (blanks ++ nl :: rest))))
    (hword : ∀ c ∈ word, isspace c = false) (hblanks : ∀ c ∈ blanks, isBlank c = true) :
    ¬ HasMaster output := by
  rintro ⟨p, rfl, -⟩
  exact not_malformed p (.noValue word blanks rest first hword hblanks)

/-- The blanks before a value have no part of `Master` in them. -/
theorem master_infix_blanks_append {blanks value : Bytes}
    (hblanks : ∀ c ∈ blanks, isBlank c = true) :
    master <:+: blanks ++ value ↔ master <:+: value := by
  refine ⟨fun h => ?_, fun h => h.trans (List.suffix_append blanks value).isInfix⟩
  induction blanks with
  | nil => exact h
  | cons b blanks ih =>
    have hb : isBlank b = true := hblanks b List.mem_cons_self
    rw [List.cons_append, List.infix_cons_iff] at h
    rcases h with hprefix | hinfix
    · obtain ⟨rest, hrest⟩ := hprefix
      obtain rfl : 77 = b := (List.cons.inj hrest).1
      exact absurd hb (by decide)
    · exact ih (fun c hc => hblanks c (List.mem_cons_of_mem b hc)) hinfix

/-- A line that fits has a master exactly when the text that is copied from it has one. -/
theorem hasMaster_iff {p : ParamLine status} (hstring : 0 ∉ p.output)
    (hroom : (p.blanks ++ p.value).length < 256) :
    HasMaster p.output ↔ master <:+: p.blanks ++ p.value := by
  constructor
  · rintro ⟨q, hq, hmaster⟩
    have hvalue : 0 ∉ q.value := q.zero_not_mem_value (hq ▸ hstring)
    -- whatever way the line is split, the same text is copied
    have hcopied : getMaxadminParam (some q.output) status 256 [] =
        some (0, p.blanks ++ p.value) := by
      rw [hq, getMaxadminParam_of_text p (p.zero_not_mem_value hstring), if_pos hroom]
    rw [getMaxadminParam_of_text q hvalue] at hcopied
    obtain ⟨-, hcopied⟩ := Option.ite_none_right_eq_some.mp hcopied
    have htext : q.blanks ++ q.value = p.blanks ++ p.value :=
      congrArg Prod.snd (Option.some.inj hcopied)
    rw [← htext, master_infix_blanks_append q.blanks_blank]
    exact hmaster
  · intro h
    exact ⟨p, rfl, (master_infix_blanks_append p.blanks_blank).mp h⟩

/-- **One server.** Of a readable output the text that is searched has a master when the output
    has one, or when it has no status, which is what 0 is not returned for, and the text
    before had one. -/
theorem getMaxadminParam_status {output : Bytes} (hstring : 0 ∉ output) (h : Readable output)
    (res : Bytes) :
    ∃ rc text, getMaxadminParam (some output) status 256 res = some (rc, text) ∧
      (rc = 0 ↔ ¬ NoStatus output) ∧
      (master <:+: text ↔ HasMaster output ∨ (NoStatus output ∧ master <:+: res)) := by
  cases h with
  | noStatus hnone =>
    have hhas : ¬ HasMaster output := fun hhas => hhas.not_noStatus hnone
    refine ⟨1, res, (getMaxadminParam_of_not_found (noStatus_iff.mp hnone) 256 res []).1,
      by simp [hnone], ?_⟩
    simp only [hhas, hnone, true_and, false_or]
  | empty word blanks rest first hword hblanks =>
    have hhas : ¬ HasMaster output := not_hasMaster_of_empty first hword hblanks
    have hsome : ¬ NoStatus output := by
      rw [noStatus_iff, first]
      exact Option.some_ne_none _
    refine ⟨0, [], getMaxadminParam_of_noValue ⟨115, rfl, rfl⟩ first hword hblanks (by decide) res,
      by simp [hsome], ?_⟩
    simp only [hhas, hsome, false_and, or_false, iff_false]
    decide
  | line p houtput hroom =>
    subst houtput
    have hsome : ¬ NoStatus p.output := by
      rw [noStatus_iff, p.strstr_output]
      exact Option.some_ne_none _
    have hvalue : 0 ∉ p.value := p.zero_not_mem_value hstring
    refine ⟨0, p.blanks ++ p.value, ?_, by simp [hsome], ?_⟩
    · rw [getMaxadminParam_of_text p hvalue, if_pos hroom]
    · rw [hasMaster_iff hstring hroom]
      simp only [hsome, false_and, or_false]

/-- An output that is not readable makes the program fault. -/
theorem readable_of_some {output : Bytes} (hstring : 0 ∉ output) {res : Bytes} {r : ℤ × Bytes}
    (h : getMaxadminParam (some output) status 256 res = some r) : Readable output := by
  match hfound : strstr output status with
  | none => exact .noStatus (noStatus_iff.mpr hfound)
  | some found =>
    rcases malformed_or_line hfound with hmalformed | ⟨p, rfl⟩
    · cases hmalformed with
      | noBlank after first hsolid =>
        rw [getMaxadminParam_of_noBlank first hsolid] at h
        cases h
      | noNewline after first hline =>
        rw [getMaxadminParam_of_noNewline first hline] at h
        cases h
      | noValue word blanks rest first hword hblanks =>
        exact .empty word blanks rest first hword hblanks
    · have hvalue : 0 ∉ p.value := p.zero_not_mem_value hstring
      rw [getMaxadminParam_of_text p hvalue] at h
      exact .line p rfl (Option.ite_none_right_eq_some.mp h).1

/-! ### The loop -/

/-- What the loop knows before server `i`, when `seen j` says that the text searched for server
    `j` has a master. -/
structure Searched (seen : ℕ → Prop) (i : ℕ) (found : Bool) (answer : ℤ) : Prop where
  found_iff : found = true ↔ ∃ j < i, seen j
  answer_sole : Sole.Answer seen i answer

section

variable {seen : ℕ → Prop} {i : ℕ} {found : Bool} {answer : ℤ}

/-- At the start nothing has been searched. -/
theorem searched_start : Searched seen 0 false (-1) where
  found_iff := by simp
  answer_sole := .inr ⟨fun ⟨_, h⟩ => Nat.not_lt_zero _ h.1, rfl⟩

/-- A server without a master changes nothing. -/
theorem Searched.succ_of_not (h : Searched seen i found answer) (hi : ¬ seen i) :
    Searched seen (i + 1) found answer where
  found_iff := by
    rw [h.found_iff]
    constructor
    · rintro ⟨j, hj, hseen⟩
      exact ⟨j, by omega, hseen⟩
    · rintro ⟨j, hj, hseen⟩
      have hne : j ≠ i := fun heq => hi (heq ▸ hseen)
      exact ⟨j, by omega, hseen⟩
  answer_sole := (Sole.answer_succ_of_not hi).mpr h.answer_sole

/-- A server with a master is the answer, unless there has been one before. -/
theorem Searched.succ_of_seen (h : Searched seen i found answer) (hi : seen i) :
    Searched seen (i + 1) true (if found then -1 else i) where
  found_iff := iff_of_true rfl ⟨i, Nat.lt_succ_self i, hi⟩
  answer_sole := by
    by_cases hfound : found = true
    · obtain ⟨j, hj, hseen⟩ := h.found_iff.mp hfound
      rw [if_pos hfound]
      exact Sole.answer_succ_of_second hi hj hseen
    · rw [if_neg hfound]
      apply Sole.answer_succ_of_first hi
      intro j hj hseen
      exact hfound (h.found_iff.mpr ⟨j, hj, hseen⟩)

end

/-- The own reply of server `i` can be used, and `P` holds of it. -/
def OwnReply (P : Bytes → Prop) (replies : List (Option Bytes)) (i : ℕ) : Prop :=
  ∃ printed, replies[i]? = some (some printed) ∧ P (sshMaxscaleOutput printed)

theorem ownReply_iff {P : Bytes → Prop} {replies : List (Option Bytes)} {i : ℕ} {printed : Bytes}
    (h : replies[i]? = some (some printed)) :
    OwnReply P replies i ↔ P (sshMaxscaleOutput printed) := by
  constructor
  · rintro ⟨printed', h', hP⟩
    rw [h] at h'
    cases h'
    exact hP
  · exact fun hP => ⟨printed, h, hP⟩

/-- Each server has a reply that can be read. -/
def AllReadable (replies : List (Option Bytes)) : Prop :=
  ∀ reply ∈ replies, ∃ printed, reply = some printed ∧ Readable (sshMaxscaleOutput printed)

/-- **The loop.** Over readable replies the loop answers for what is seen: the own replies, and
    where one has no status, what was seen before. -/
theorem masterLoop_spec {all replies : List (Option Bytes)} {i : ℕ} (hi : i ≤ all.length)
    (hall : all.drop i = replies) (hread : AllReadable replies) {stale : Prop} {res : Bytes}
    {found : Bool} {answer : ℤ}
    (hres : master <:+: res ↔
      Sole.before (OwnReply HasMaster all) (OwnReply NoStatus all) stale i)
    (h : Searched (Sole.carried (OwnReply HasMaster all) (OwnReply NoStatus all) stale) i found
      answer) :
    ∃ r, masterLoop replies i res found answer = some r ∧
      Sole.Answer (Sole.carried (OwnReply HasMaster all) (OwnReply NoStatus all) stale)
        all.length r := by
  induction replies generalizing i res found answer with
  | nil =>
    have hlen : all.length ≤ i := List.drop_eq_nil_iff.mp hall
    obtain rfl : i = all.length := by omega
    exact ⟨answer, rfl, h.answer_sole⟩
  | cons reply replies ih =>
    obtain ⟨printed, rfl, hreadable⟩ := hread reply List.mem_cons_self
    have hreply : all[i]? = some (some printed) := by
      have hhead := congrArg List.head? hall
      rwa [List.head?_drop] at hhead
    have hlt : i < all.length := (List.getElem?_eq_some_iff.mp hreply).1
    have hrest : all.drop (i + 1) = replies := by
      rw [← List.tail_drop, hall, List.tail_cons]
    obtain ⟨rc, text, hget, -, htext⟩ :=
      getMaxadminParam_status (zero_not_mem_sshMaxscaleOutput printed) hreadable res
    -- what is searched for this server is what is seen at its index
    have hseen : master <:+: text ↔
        Sole.carried (OwnReply HasMaster all) (OwnReply NoStatus all) stale i := by
      rw [htext, Sole.carried_iff, ownReply_iff hreply, ownReply_iff hreply, hres]
    have hread' : AllReadable replies := fun reply hmem =>
      hread reply (List.mem_cons_of_mem _ hmem)
    simp only [masterLoop, Option.map_some, hget]
    by_cases hmaster : master <:+: text
    · rw [if_pos ((strstr_isSome_iff _ _).mpr hmaster)]
      exact ih hlt hrest hread' hseen (h.succ_of_seen (hseen.mp hmaster))
    · rw [if_neg (mt (strstr_isSome_iff _ _).mp hmaster)]
      exact ih hlt hrest hread' hseen (h.succ_of_not (mt hseen.mpr hmaster))

/-- A loop that comes to its end has read all replies. -/
theorem allReadable_of_some {replies : List (Option Bytes)} {i : ℕ} {res : Bytes} {found : Bool}
    {answer r : ℤ} (h : masterLoop replies i res found answer = some r) : AllReadable replies := by
  induction replies generalizing i res found answer with
  | nil => nofun
  | cons reply replies ih =>
    unfold masterLoop at h
    split at h
    · cases h
    · rename_i rc text hget
      have hreplies : AllReadable replies := by
        split at h
        · exact ih h
        · exact ih h
      match reply with
      | none => cases hget
      | some printed =>
        have hreadable := readable_of_some (zero_not_mem_sshMaxscaleOutput printed) hget
        exact List.forall_mem_cons.mpr ⟨⟨printed, rfl, hreadable⟩, hreplies⟩

/-! ### Whose status is searched -/

/-- The reply can be used and has no status. -/
def LacksStatus (reply : Option Bytes) : Prop :=
  ∃ printed, reply = some printed ∧ NoStatus (sshMaxscaleOutput printed)

/-- No reply without a status stands behind one with a status. -/
def StatusesLast (replies : List (Option Bytes)) : Prop :=
  replies.Pairwise fun before reply => LacksStatus reply → LacksStatus before

/-- None of the texts searched from server `i` on is the status of another server. -/
def OwnStatuses (i : ℕ) (texts : List (Bytes × Option ℕ)) : Prop :=
  ∀ k text j, texts[k]? = some (text, some j) → j = i + k

theorem ownStatuses_cons {i : ℕ} {text : Bytes} {origin : Option ℕ}
    {texts : List (Bytes × Option ℕ)} :
    OwnStatuses i ((text, origin) :: texts) ↔
      (∀ j ∈ origin, j = i) ∧ OwnStatuses (i + 1) texts := by
  constructor
  · intro h
    refine ⟨fun j hj => h 0 text j (by rw [List.getElem?_cons_zero, hj]), fun k t j hj => ?_⟩
    have hown : j = i + (k + 1) := h (k + 1) t j (by rw [List.getElem?_cons_succ, hj])
    omega
  · rintro ⟨hfirst, hrest⟩ k t j hj
    cases k with
    | zero =>
      rw [List.getElem?_cons_zero, Option.some.injEq, Prod.mk.injEq] at hj
      exact hfirst j hj.2
    | succ k =>
      have hown : j = i + 1 + k := hrest k t j hj
      omega

/-- One turn: the text is this server's status, or what was there before. -/
theorem searched_cons {printed : Bytes} (hread : Readable (sshMaxscaleOutput printed))
    (replies : List (Option Bytes)) (i : ℕ) (res : Bytes) (origin : Option ℕ) :
    ∃ text origin', searched (some printed :: replies) i res origin
        = (text, origin') :: searched replies (i + 1) text origin' ∧
      (LacksStatus (some printed) ∧ origin' = origin ∨
        ¬ LacksStatus (some printed) ∧ origin' = some i) := by
  obtain ⟨rc, text, hget, hrc, -⟩ :=
    getMaxadminParam_status (zero_not_mem_sshMaxscaleOutput printed) hread res
  have hlacks : LacksStatus (some printed) ↔ NoStatus (sshMaxscaleOutput printed) := by
    simp [LacksStatus]
  refine ⟨text, if rc = 0 then some i else origin, ?_, ?_⟩
  · simp only [searched, Option.map_some, hget]
  · by_cases hnone : NoStatus (sshMaxscaleOutput printed)
    · exact .inl ⟨hlacks.mpr hnone, if_neg fun h => hrc.mp h hnone⟩
    · exact .inr ⟨mt hlacks.mp hnone, if_pos (hrc.mpr hnone)⟩

/-- **Whose status is searched.** Each server is searched for its own status, or for none,
    exactly when none lacks one while `res` holds that of a server before. -/
theorem origins_own_iff {replies : List (Option Bytes)} (hread : AllReadable replies) {i : ℕ}
    {res : Bytes} {origin : Option ℕ} (horigin : ∀ j ∈ origin, j < i) :
    OwnStatuses i (searched replies i res origin) ↔
      (origin ≠ none → ∀ reply ∈ replies, ¬ LacksStatus reply) ∧ StatusesLast replies := by
  induction replies generalizing i res origin with
  | nil => simp [searched, OwnStatuses, StatusesLast]
  | cons reply replies ih =>
    obtain ⟨printed, rfl, hreadable⟩ := hread reply List.mem_cons_self
    have hread' : AllReadable replies := fun reply hmem => hread reply (List.mem_cons_of_mem _ hmem)
    obtain ⟨text, origin', hsearched, hfrom⟩ := searched_cons hreadable replies i res origin
    rw [hsearched, ownStatuses_cons, StatusesLast, List.pairwise_cons, List.forall_mem_cons]
    rcases hfrom with ⟨hlacks, rfl⟩ | ⟨hhas, rfl⟩
    · -- the text is still the one from before, which must be nobody's
      have horigin' : ∀ j ∈ origin', j < i + 1 := fun j hj => Nat.lt_succ_of_lt (horigin j hj)
      rw [ih hread' horigin']
      cases origin' with
      | none => simp [hlacks, StatusesLast]
      | some j =>
        have hne : ¬ j = i := Nat.ne_of_lt (horigin j rfl)
        simp [hlacks, hne]
    · have horigin' : ∀ j ∈ some i, j < i + 1 := by
        intro j hj
        cases hj
        exact Nat.lt_succ_self i
      rw [ih hread' horigin']
      simp [hhas, StatusesLast]
      tauto

/-! ### Which masters are found -/

/-- `find_master_maxadmin` returns the only server whose own reply has a master, or -1, and
    in no turn is the text that it searches the status of another server. -/
structure FindsOwnMaster (replies : List (Option Bytes)) (res : Bytes) : Prop where
  answer : ∃ r, findMasterMaxadmin replies res = some r ∧
    Sole.Answer (OwnReply HasMaster replies) replies.length r
  attributed : OwnStatuses 0 (searched replies 0 res none)

/-- **Which masters are found.** Whatever the buffer holds at the start, the answer is right and
    no status is another server's exactly when each reply can be read, those without a status
    are harmless, and none of them stands behind one with a status. -/
theorem find_master_maxadmin_iff (replies : List (Option Bytes)) :
    (∀ res, FindsOwnMaster replies res) ↔
      AllReadable replies ∧
        Sole.Harmless (OwnReply HasMaster replies) (OwnReply NoStatus replies) replies.length ∧
        StatusesLast replies := by
  have hdisjoint : ∀ i, OwnReply HasMaster replies i → ¬ OwnReply NoStatus replies i := by
    rintro i ⟨printed, hreply, hhas⟩ hnone
    exact hhas.not_noStatus ((ownReply_iff hreply).mp hnone)
  -- what the loop gives over readable replies
  have hrun : AllReadable replies → ∀ (stale : Prop) (res : Bytes), (master <:+: res ↔ stale) →
      ∃ r, findMasterMaxadmin replies res = some r ∧
        Sole.Answer (Sole.carried (OwnReply HasMaster replies) (OwnReply NoStatus replies) stale)
          replies.length r := by
    intro hread stale res hres
    exact masterLoop_spec (Nat.zero_le _) rfl hread hres searched_start
  -- whose status is searched does not depend on the buffer
  have hown : AllReadable replies → ∀ res,
      (OwnStatuses 0 (searched replies 0 res none) ↔ StatusesLast replies) := by
    intro hread res
    rw [origins_own_iff hread (by simp)]
    simp
  constructor
  · intro h
    obtain ⟨r, hr, -⟩ := (h []).answer
    have hread : AllReadable replies := allReadable_of_some hr
    refine ⟨hread, (Sole.harmless_iff hdisjoint).mp fun stale i => ?_,
      (hown hread []).mp (h []).attributed⟩
    -- a buffer that holds a master, or none
    obtain ⟨res, hres⟩ : ∃ res, master <:+: res ↔ stale := by
      by_cases hstale : stale
      · exact ⟨master, iff_of_true List.infix_rfl hstale⟩
      · exact ⟨[], iff_of_false (by decide) hstale⟩
    obtain ⟨r, hr, hseen⟩ := hrun hread stale res hres
    obtain ⟨r', hr', hanswer⟩ := (h res).answer
    rw [hr] at hr'
    cases hr'
    exact hseen.at_iff hanswer i
  · rintro ⟨hread, hharmless, hlast⟩ res
    obtain ⟨r, hr, hseen⟩ := hrun hread (master <:+: res) res Iff.rfl
    exact ⟨⟨r, hr, hseen.congr (hharmless.at_iff _)⟩, (hown hread res).mpr hlast⟩

/-- The status of a server that is the master, and the error for one that is not known. -/
def staleReplies : List (Option Bytes) :=
  [some statusLine.output, some (ascii "No such server: server2\n")]

/-- Only the first server's own reply has a master. -/
theorem staleReplies_own : Sole.At (OwnReply HasMaster staleReplies) 2 0 := by
  have htext : sshMaxscaleOutput statusLine.output = statusLine.output :=
    sshMaxscaleOutput_of_not_mem (by decide +kernel)
  refine ⟨by decide, ⟨statusLine.output, rfl, ?_⟩, fun j hj hown => ?_⟩
  · rw [htext]
    exact ⟨statusLine, rfl, by decide +kernel⟩
  · by_contra hne
    obtain rfl : j = 1 := by omega
    obtain ⟨printed, hreply, hhas⟩ := hown
    cases hreply
    have hnone : strstr (sshMaxscaleOutput (ascii "No such server: server2\n")) status = none := by
      decide +kernel
    exact hhas.not_noStatus (noStatus_iff.mpr hnone)

/-- The status of the first server is taken for that of the second, and no master is found. -/
theorem find_master_maxadmin_stale :
    findMasterMaxadmin staleReplies [] = some (-1) ∧ ¬ FindsOwnMaster staleReplies [] := by
  have hanswer : findMasterMaxadmin staleReplies [] = some (-1) := by decide +kernel
  refine ⟨hanswer, ?_⟩
  rintro ⟨⟨r, hr, hsole⟩, -⟩
  rw [hanswer] at hr
  cases hr
  rcases hsole with ⟨i, -, hi⟩ | ⟨hnone, -⟩
  · omega
  · exact hnone ⟨0, staleReplies_own⟩

end MaxScaleSystemTest.Maxadmin
