import MaxScaleSystemTest.Lib.SystemCalls

namespace MaxScaleSystemTest.Maxinfo

open CString SystemCalls

/-!
# Socket input and output of the MaxInfo client

`send_so` sends a C string in as many `send` calls as it takes.

* `send_so_delivers` — when it returns 0 every byte was handed over, once and in order.
-/

/-- Where `send_so` stands: what it has returned, if it has, and the bytes the socket has
    taken so far, in order. -/
structure SendRun where
  returned : Option ℤ
  handed : Bytes

/-- The loop of `send_so`, from `sent` on; each `send` is offered what is left of `data`. -/
def sendLoop (data : Bytes) (sent : ℕ) (handed : Bytes) : List WriteResult → SendRun
  | [] => if sent < data.length then ⟨none, handed⟩ else ⟨some 0, handed⟩
  | r :: rs =>
    if sent < data.length then
      match r with
      | .error _ => ⟨some (-1), handed⟩
      | .accepted tmpres => sendLoop data (sent + tmpres) (handed ++ (data.drop sent).take tmpres) rs
    else ⟨some 0, handed⟩

/-- `send_so(sock, data)`, on the results its `send`s get. -/
def sendSo (data : Bytes) (sends : List WriteResult) : SendRun := sendLoop data 0 [] sends

/-- The loop invariant: what was handed over is the front of the data. -/
theorem sendLoop_handed (data : Bytes) (sends : List WriteResult) (sent : ℕ) :
    ∃ n ≥ sent, (sendLoop data sent (data.take sent) sends).handed = data.take n ∧
      ((sendLoop data sent (data.take sent) sends).returned = some 0 → data.length ≤ n) := by
  induction sends generalizing sent with
  | nil =>
    refine ⟨sent, le_refl _, ?_⟩
    by_cases hsent : sent < data.length
    · simp [sendLoop, hsent]
    · simp only [sendLoop, hsent, if_false, true_and]
      omega
  | cons r rs ih =>
    by_cases hsent : sent < data.length
    · match r with
      | .error e =>
        refine ⟨sent, le_refl _, ?_⟩
        simp [sendLoop, hsent]
      | .accepted tmpres =>
        -- the next call continues where this one stopped
        obtain ⟨n, hn, hhanded, hreturned⟩ := ih (sent + tmpres)
        have htake : data.take sent ++ (data.drop sent).take tmpres = data.take (sent + tmpres) :=
          List.take_add.symm
        refine ⟨n, by omega, ?_⟩
        rw [sendLoop, if_pos hsent, htake]
        exact ⟨hhanded, hreturned⟩
    · refine ⟨sent, le_refl _, ?_⟩
      simp only [sendLoop, hsent, if_false, true_and]
      omega

/-- **`send_so` sends everything.** Whatever the socket takes in each call, a return of 0
    means that the data was handed over whole. -/
theorem send_so_delivers (data : Bytes) (sends : List WriteResult)
    (h : (sendSo data sends).returned = some 0) : (sendSo data sends).handed = data := by
  obtain ⟨n, -, hhanded, hreturned⟩ := sendLoop_handed data sends 0
  have hlen : data.length ≤ n := hreturned h
  calc (sendSo data sends).handed = data.take n := hhanded
    _ = data := List.take_of_length_le hlen

end MaxScaleSystemTest.Maxinfo
