import MaxScaleSystemTest.Cdc.Connection
import MaxScaleSystemTest.Lib.Hex

namespace MaxScaleSystemTest.Maxinfo

open CString Cdc

/-!
# The CDC authentication string of the MaxInfo client

`cdc_auth_srt` builds the string a CDC client sends first, as `generateAuthString` of the
CDC connector does.  One joins `user` and `:` before it encodes them, the other encodes
the pieces and joins them with `sprintf`, in a block without room for the NUL behind them.

* `bin2hex_text` — the digits of the three texts `cdc_auth_srt` joins;
* `cdc_auth_srt_never_agrees` — both write the same digits, but the block of `cdc_auth_srt`
  never holds them as a string.
-/

/-- A heap block: the size asked of `malloc`, and the bytes stored from its front on,
    whether or not they fit. -/
structure Block where
  size : ℕ
  stored : Bytes

/-- What is stored up to the first NUL, inside the block or not. -/
def Block.text (b : Block) : Bytes := cut b.stored

/-- The C string at the start of a block: none where no NUL lies inside the block. -/
def Block.cstring (b : Block) : Option Bytes :=
  if 0 ∈ b.stored.take b.size then some b.text else none

/-- The loop of `bin2hex`; `j` is the length of `result`. -/
def bin2hexLoop : Bytes → Bytes → Bytes
  | [], result => result
  | b :: old, result => bin2hexLoop old (result ++ [hexconvtab (b >>> 4), hexconvtab (b &&& 15)])

/-- `bin2hex`, on the first `oldlen` bytes of `old`. -/
def bin2hex (old : Bytes) (oldlen : ℕ) : Block where
  size := oldlen * 2 + 1
  stored := bin2hexLoop (old.take oldlen) [] ++ [0]

/-- `cdc_auth_srt`: the block `str` it returns. -/
def cdcAuthSrt (sys : Platform) (user password : Bytes) : Block :=
  let sha1pass := sys.sha1 (cut password)
  let sha1passHex := bin2hex sha1pass 20
  let userHex := bin2hex (cut user) (cut user).length
  let clmnHex := bin2hex (ascii ":") 1
  { size := 42 + (cut user).length * 2
    stored := userHex.text ++ clmnHex.text ++ sha1passHex.text ++ [0] }

/-! ### Both table lookups give hexadecimal digits -/

theorem hexconvtab_eq_digit : ∀ n < 16, hexconvtab (UInt8.ofNat n) = Hex.digit n := by decide

/-- Looking the two halves of a byte up in `hexconvtab` gives its two digits. -/
theorem hexconvtab_pair (b : UInt8) :
    [hexconvtab (b >>> 4), hexconvtab (b &&& 15)] = Hex.pair b := by
  have hbyte : b.toNat < 256 := b.toNat_lt
  have hhigh : b >>> 4 = UInt8.ofNat (b.toNat / 16) := by
    apply UInt8.toNat_inj.mp
    simp [Nat.shiftRight_eq_div_pow]
    omega
  have hlow : b &&& 15 = UInt8.ofNat (b.toNat % 16) := by
    have hmask : b.toNat &&& 15 = b.toNat % 16 := Nat.and_two_pow_sub_one_eq_mod b.toNat 4
    apply UInt8.toNat_inj.mp
    calc (b &&& 15).toNat = b.toNat &&& 15 := UInt8.toNat_and b 15
      _ = b.toNat % 16 := hmask
      _ = (UInt8.ofNat (b.toNat % 16)).toNat := (Nat.mod_eq_of_lt (by omega)).symm
  rw [hhigh, hlow, hexconvtab_eq_digit _ (by omega), hexconvtab_eq_digit _ (by omega), Hex.pair]

/-- The connector's `bin2hex` writes the hexadecimal text of its bytes. -/
theorem connector_bin2hex_eq (data : Bytes) : Cdc.bin2hex data = Hex.encode data := by
  have hpair : (fun b : UInt8 => [hexconvtab (b >>> 4), hexconvtab (b &&& 0x0f)]) = Hex.pair :=
    funext hexconvtab_pair
  rw [Cdc.bin2hex, hpair, Hex.encode]

/-- The loop invariant: the text of the bytes read so far is stored. -/
theorem bin2hexLoop_eq (old result : Bytes) :
    bin2hexLoop old result = result ++ Hex.encode old := by
  induction old generalizing result with
  | nil => simp [bin2hexLoop]
  | cons b old ih => rw [bin2hexLoop, ih, hexconvtab_pair, Hex.encode_cons, List.append_assoc]

/-- What ends with its only NUL has the bytes before it as its text. -/
theorem text_of_nul {b : Block} {bs : Bytes} (h : b.stored = bs ++ [0]) (hnul : 0 ∉ bs) :
    b.text = bs := by
  rw [Block.text, h, cut, List.takeWhile_append_of_pos]
  · simp
  · intro c hc
    have hne : c ≠ 0 := fun heq => hnul (heq ▸ hc)
    simpa using hne

/-- The text is a string of the block exactly if its NUL has a place in the block. -/
theorem cstring_of_nul {b : Block} {bs : Bytes} (h : b.stored = bs ++ [0]) (hnul : 0 ∉ bs) :
    b.cstring = if bs.length < b.size then some bs else none := by
  have hmem : 0 ∈ b.stored.take b.size ↔ bs.length < b.size := by
    rw [h, List.take_append, List.mem_append]
    have hfront : 0 ∉ bs.take b.size := fun hz => hnul (List.mem_of_mem_take hz)
    rw [or_iff_right hfront]
    rcases Nat.eq_zero_or_pos (b.size - bs.length) with hzero | hpos
    · rw [hzero]
      simp
      omega
    · have hone : ([0] : Bytes).length ≤ b.size - bs.length := hpos
      rw [List.take_of_length_le hone]
      simp
      omega
  simp only [Block.cstring, hmem, text_of_nul h hnul]

theorem bin2hex_stored (old : Bytes) :
    (bin2hex old old.length).stored = Hex.encode old ++ [0] := by
  rw [bin2hex, List.take_length, bin2hexLoop_eq, List.nil_append]

theorem bin2hex_text (old : Bytes) : (bin2hex old old.length).text = Hex.encode old :=
  text_of_nul (bin2hex_stored old) (Hex.zero_not_mem_encode old)

/-! ### The two authentication strings -/

/-- `generateAuthString` encodes `user`, `:` and the digest. -/
theorem generateAuthString_eq (sys : Platform) (user password : Bytes) :
    generateAuthString sys user password
      = Hex.encode (user ++ ascii ":" ++ sys.sha1 password) := by
  show Cdc.bin2hex (user ++ ascii ":") ++ Cdc.bin2hex (sys.sha1 password) = _
  rw [connector_bin2hex_eq, connector_bin2hex_eq, ← Hex.encode_append]

/-- `cdc_auth_srt` writes the hexadecimal text of `user`, `:` and the digest, and a NUL. -/
theorem cdcAuthSrt_stored (sys : Platform) (hsha : ∀ s, (sys.sha1 s).length = 20)
    {user password : Bytes} (huser : 0 ∉ user) (hpassword : 0 ∉ password) :
    (cdcAuthSrt sys user password).stored
      = Hex.encode (user ++ ascii ":" ++ sys.sha1 password) ++ [0] := by
  have hcolon : (bin2hex (ascii ":") 1).text = Hex.encode (ascii ":") := bin2hex_text (ascii ":")
  have hdigest : (bin2hex (sys.sha1 password) 20).text = Hex.encode (sys.sha1 password) := by
    rw [← hsha password]
    exact bin2hex_text _
  simp only [cdcAuthSrt, cut_of_not_mem huser, cut_of_not_mem hpassword]
  rw [bin2hex_text, hcolon, hdigest, Hex.encode_append, Hex.encode_append]

/-- Both encoders give one string, the lower-case hexadecimal text of `user`, `:` and the
    digest, and decoding it gives these bytes back. -/
structure EncodersAgree (sys : Platform) (user password : Bytes) : Prop where
  same : (cdcAuthSrt sys user password).cstring = some (generateAuthString sys user password)
  digits : generateAuthString sys user password
    = Hex.encode (user ++ ascii ":" ++ sys.sha1 password)
  decodes : Hex.decode (generateAuthString sys user password)
    = some (user ++ ascii ":" ++ sys.sha1 password)

variable (sys : Platform) (hsha : ∀ s, (sys.sha1 s).length = 20) (user password : Bytes)
  (huser : 0 ∉ user) (hpassword : 0 ∉ password)

include hsha huser hpassword

/-- The digits fill `str` to its last byte. -/
theorem cdcAuthSrt_cstring : (cdcAuthSrt sys user password).cstring = none := by
  have hstored := cdcAuthSrt_stored sys hsha huser hpassword
  rw [cstring_of_nul hstored (Hex.zero_not_mem_encode _), if_neg]
  rw [Hex.length_encode, List.length_append, List.length_append, hsha]
  show ¬ (user.length + 1 + 20) * 2 < 42 + (cut user).length * 2
  rw [cut_of_not_mem huser]
  omega

/-- **The encoders never agree.** For NUL-free names and passwords the digits that
    `cdc_auth_srt` writes are those of `generateAuthString`, the hexadecimal text of `user`,
    `:` and the digest, which decodes to these bytes; but its block ends behind the last
    digit, so that what it returns is not a string. -/
theorem cdc_auth_srt_never_agrees :
    ¬ EncodersAgree sys user password ∧
      (cdcAuthSrt sys user password).cstring = none ∧
      (cdcAuthSrt sys user password).text = generateAuthString sys user password ∧
      generateAuthString sys user password
        = Hex.encode (user ++ ascii ":" ++ sys.sha1 password) ∧
      Hex.decode (generateAuthString sys user password)
        = some (user ++ ascii ":" ++ sys.sha1 password) := by
  have hgen := generateAuthString_eq sys user password
  have hnone := cdcAuthSrt_cstring sys hsha user password huser hpassword
  refine ⟨fun hagree => ?_, hnone, ?_, hgen, ?_⟩
  · have hsome := hagree.same
    rw [hnone] at hsome
    exact absurd hsome (by simp)
  · rw [hgen]
    exact text_of_nul (cdcAuthSrt_stored sys hsha huser hpassword) (Hex.zero_not_mem_encode _)
  · rw [hgen, Hex.decode_encode]

omit hsha huser hpassword

/-- The digests of the example platform have 20 bytes. -/
theorem length_example_sha1 (s : Bytes) : (examplePlatform.sha1 s).length = 20 := rfl

/-- A user name with bytes above `0x7f`. -/
theorem cdc_auth_srt_never_agrees_umlaut :
    ¬ EncodersAgree examplePlatform [109, 195, 188] (ascii "skysql") ∧
      (cdcAuthSrt examplePlatform [109, 195, 188] (ascii "skysql")).cstring = none ∧
      (cdcAuthSrt examplePlatform [109, 195, 188] (ascii "skysql")).text
        = generateAuthString examplePlatform [109, 195, 188] (ascii "skysql") ∧
      generateAuthString examplePlatform [109, 195, 188] (ascii "skysql")
        = Hex.encode ([109, 195, 188] ++ ascii ":" ++ examplePlatform.sha1 (ascii "skysql")) ∧
      Hex.decode (generateAuthString examplePlatform [109, 195, 188] (ascii "skysql"))
        = some ([109, 195, 188] ++ ascii ":" ++ examplePlatform.sha1 (ascii "skysql")) :=
  cdc_auth_srt_never_agrees examplePlatform length_example_sha1 [109, 195, 188] (ascii "skysql")
    (by decide) (by decide)

/-- For `maxuser` and `maxpwd` 56 digits fill the 56 bytes of the block. -/
theorem maxuser_not_terminated :
    ¬ EncodersAgree examplePlatform (ascii "maxuser") (ascii "maxpwd") := by
  intro hagree
  have hnone := cdcAuthSrt_cstring examplePlatform length_example_sha1 (ascii "maxuser")
    (ascii "maxpwd") (by decide) (by decide)
  exact absurd (hnone.symm.trans hagree.same) (by simp)

end MaxScaleSystemTest.Maxinfo
