import MaxScaleSystemTest.Maxinfo.Auth

namespace MaxScaleSystemTest.Maxinfo

open CString Cdc

/-!
# The heap blocks of `cdc_auth_srt`

`cdc_auth_srt` works in six blocks: the copies of the password and the user name, the three
hexadecimal texts, and `str` for the result.  The size of `str` counts the texts and one more
byte for the `:`, which takes two.

* `other_blocks_hold` — five of the blocks hold what is written into them;
* `length_str` — the bytes written to `str` are one more than its size;
* `cdc_auth_srt_overflows` — so no call stays within its blocks.
-/

/-- What is written into the block fits. -/
def Block.Holds (b : Block) : Prop := b.stored.length ≤ b.size

/-- The blocks `cdc_auth_srt` allocates. -/
structure AuthBlocks where
  str : Block
  passwordU : Block
  userU : Block
  sha1passHex : Block
  userHex : Block
  clmnHex : Block

/-- `cdc_auth_srt`, with all its blocks as they are before the first `free`. -/
def authBlocks (sys : Platform) (user password : Bytes) : AuthBlocks where
  str := cdcAuthSrt sys user password
  passwordU := ⟨(cut password).length, cut password⟩
  userU := ⟨(cut user).length, cut user⟩
  sha1passHex := bin2hex (sys.sha1 (cut password)) 20
  userHex := bin2hex (cut user) (cut user).length
  clmnHex := bin2hex (ascii ":") 1

/-- Every byte that is written lies in the block that is meant to hold it. -/
structure AuthBlocks.WritesWithin (bs : AuthBlocks) : Prop where
  str : bs.str.Holds
  passwordU : bs.passwordU.Holds
  userU : bs.userU.Holds
  sha1passHex : bs.sha1passHex.Holds
  userHex : bs.userHex.Holds
  clmnHex : bs.clmnHex.Holds

/-! ### The sizes -/

/-- `bin2hex` fills its block to the last byte. -/
theorem length_bin2hex (old : Bytes) :
    (bin2hex old old.length).stored.length = (bin2hex old old.length).size := by
  rw [bin2hex_stored, List.length_append, Hex.length_encode, List.length_singleton]
  rfl

theorem bin2hex_holds (old : Bytes) : (bin2hex old old.length).Holds :=
  le_of_eq (length_bin2hex old)

variable (sys : Platform) (hsha : ∀ s, (sys.sha1 s).length = 20) (user password : Bytes)

include hsha

/-- The copies and the hexadecimal texts have their place. -/
theorem other_blocks_hold :
    (authBlocks sys user password).passwordU.Holds ∧ (authBlocks sys user password).userU.Holds ∧
      (authBlocks sys user password).sha1passHex.Holds ∧
      (authBlocks sys user password).userHex.Holds ∧
      (authBlocks sys user password).clmnHex.Holds := by
  have hdigest := bin2hex_holds (sys.sha1 (cut password))
  rw [hsha] at hdigest
  exact ⟨le_refl _, le_refl _, hdigest, bin2hex_holds _, bin2hex_holds (ascii ":")⟩

/-- `str` gets `2 * strlen(user) + 2 + 40` digits and a NUL. -/
theorem length_str :
    (authBlocks sys user password).str.stored.length
      = (authBlocks sys user password).str.size + 1 := by
  have huser : ((bin2hex (cut user) (cut user).length).text).length = 2 * (cut user).length := by
    rw [bin2hex_text, Hex.length_encode, Nat.mul_comm]
  have hcolon : ((bin2hex (ascii ":") 1).text).length = 2 := by
    show ((bin2hex (ascii ":") (ascii ":").length).text).length = 2
    rw [bin2hex_text, Hex.length_encode]
    rfl
  have hdigest : ((bin2hex (sys.sha1 (cut password)) 20).text).length = 40 := by
    rw [← hsha (cut password), bin2hex_text, Hex.length_encode, hsha]
  show ((bin2hex (cut user) (cut user).length).text ++ (bin2hex (ascii ":") 1).text
    ++ (bin2hex (sys.sha1 (cut password)) 20).text ++ [0]).length
      = 42 + (cut user).length * 2 + 1
  rw [List.length_append, List.length_append, List.length_append, huser, hcolon, hdigest,
    List.length_singleton]
  omega

/-- **No call stays within its blocks.** For every user name and password exactly one byte,
    the NUL behind the result, is written outside, behind the end of `str`. -/
theorem cdc_auth_srt_overflows :
    ¬ (authBlocks sys user password).WritesWithin ∧
      (authBlocks sys user password).str.stored.length
        = (authBlocks sys user password).str.size + 1 ∧
      (authBlocks sys user password).passwordU.Holds ∧
      (authBlocks sys user password).userU.Holds ∧
      (authBlocks sys user password).sha1passHex.Holds ∧
      (authBlocks sys user password).userHex.Holds ∧
      (authBlocks sys user password).clmnHex.Holds := by
  have hlength := length_str sys hsha user password
  refine ⟨fun h => ?_, hlength, other_blocks_hold sys hsha user password⟩
  have hstr : (authBlocks sys user password).str.stored.length
      ≤ (authBlocks sys user password).str.size := h.str
  omega

omit hsha

/-- Even the call for the empty name and the empty password. -/
theorem cdc_auth_srt_overflows_empty :
    (∀ s, (examplePlatform.sha1 s).length = 20) ∧
      ¬ (authBlocks examplePlatform [] []).WritesWithin ∧
      (authBlocks examplePlatform [] []).str.stored.length
        = (authBlocks examplePlatform [] []).str.size + 1 ∧
      (authBlocks examplePlatform [] []).passwordU.Holds ∧
      (authBlocks examplePlatform [] []).userU.Holds ∧
      (authBlocks examplePlatform [] []).sha1passHex.Holds ∧
      (authBlocks examplePlatform [] []).userHex.Holds ∧
      (authBlocks examplePlatform [] []).clmnHex.Holds :=
  ⟨length_example_sha1, cdc_auth_srt_overflows examplePlatform length_example_sha1 [] []⟩

/-- For `skysql` 55 bytes go into a block of 54. -/
theorem skysql_overflows :
    ¬ (authBlocks examplePlatform (ascii "skysql") (ascii "skysql")).WritesWithin := by
  intro h
  have hlength := length_str examplePlatform length_example_sha1 (ascii "skysql") (ascii "skysql")
  have hstr : (authBlocks examplePlatform (ascii "skysql") (ascii "skysql")).str.stored.length
      ≤ (authBlocks examplePlatform (ascii "skysql") (ascii "skysql")).str.size := h.str
  omega

end MaxScaleSystemTest.Maxinfo
