import MaxScaleSystemTest.Lib.Decimal
import MaxScaleSystemTest.Lib.Delimited
import MaxScaleSystemTest.Lib.Substitute
import Mathlib.Data.List.Nodup

namespace MaxScaleSystemTest.Config.Template

open CString Substitute

/-!
# Configuration templates

`process_template` runs `sed` on the template once for every placeholder.  Some of the commands
have the flag `g`, and those for the threads, the addresses and the ports have not, so that they
replace the first occurrence in each line.

* `processTemplate_eq` — the commands, one after the other on each line;
* `sedAll_eq` — on a line they do the same as putting in all values at once;
* `undisturbed_of_apart` — the placeholders of a line do not get into each other's way when they
  stand apart;
* `process_template_instantiates` — the whole file.

A file is the list of its lines.
-/

/-! ### The function -/

/-- A text that the shell and `sed`, with this delimiter, take as it is. -/
structure PlainText (delim : UInt8) where
  text : Bytes
  plain : ∀ c ∈ ascii "\\&\n\"$" ++ [96, delim], c ∉ text

/-- `/`. -/
def slash : UInt8 := 47

/-- `|`. -/
def bar : UInt8 := 124

/-- What `process_template` reads of a `Mariadb_nodes` object. -/
structure MariadbNodes where
  N : ℕ
  ip : ℕ → PlainText slash
  ip6 : ℕ → PlainText slash
  port : ℕ → ℤ
  useIpv6 : Bool
  v51 : Bool

/-- The two objects. -/
inductive Backend where
  | repl
  | galera
  deriving DecidableEq

/-- `prefix`. -/
def Backend.namePrefix : Backend → Bytes
  | .repl => ascii "node"
  | .galera => ascii "galera"

/-- What `process_template` reads of a `TestConnections` object. -/
structure Setup where
  threads : ℤ
  repl : MariadbNodes
  galera : MariadbNodes
  maxscaleAccessUser : PlainText slash
  maxscaleAccessHomedir : PlainText bar
  backendSsl : Bool

/-- `mdn`. -/
def Setup.mdn (s : Setup) : Backend → MariadbNodes
  | .repl => s.repl
  | .galera => s.galera

/-- What is replaced; the numbers of the nodes start with 0. -/
inductive Placeholder where
  | threads
  | serverIp (mdn : Backend) (i : ℕ)
  | serverPort (mdn : Backend) (i : ℕ)
  | accessUser
  | accessHomedir
  | repl51
  deriving DecidableEq

/-- How it is written. -/
def Placeholder.name : Placeholder → Bytes
  | .threads => ascii "###threads###"
  | .serverIp mdn i =>
    ascii "###" ++ mdn.namePrefix ++ ascii "_server_IP_" ++ Decimal.ofNat (i + 1) ++ ascii "###"
  | .serverPort mdn i =>
    ascii "###" ++ mdn.namePrefix ++ ascii "_server_port_" ++ Decimal.ofNat (i + 1) ++ ascii "###"
  | .accessUser => ascii "###access_user###"
  | .accessHomedir => ascii "###access_homedir###"
  | .repl51 => ascii "###repl51###"

/-- Whether its command has the flag `g`. -/
def Placeholder.all : Placeholder → Bool
  | .threads | .serverIp _ _ | .serverPort _ _ => false
  | .accessUser | .accessHomedir | .repl51 => true

/-- What it is replaced by. -/
def Setup.value (s : Setup) : Placeholder → Bytes
  | .threads => Decimal.ofInt s.threads
  | .serverIp mdn i =>
    if (s.mdn mdn).useIpv6 then ((s.mdn mdn).ip6 i).text else ((s.mdn mdn).ip i).text
  | .serverPort mdn i => Decimal.ofInt ((s.mdn mdn).port i)
  | .accessUser => s.maxscaleAccessUser.text
  | .accessHomedir => s.maxscaleAccessHomedir.text
  | .repl51 => ascii "mysql51_replication=true"

/-- `s/name/value/`, or `s/name/value/g`, on one line. -/
def sedLine (s : Setup) (line : Bytes) (p : Placeholder) : Bytes :=
  if p.all then replaceAll p.name (s.value p) line else replaceFirst p.name (s.value p) line

/-- `sed -i` on the file. -/
def sed (s : Setup) (file : List Bytes) (p : Placeholder) : List Bytes :=
  file.map fun line => sedLine s line p

/-- The lines that take the place of a line when SSL settings are added. -/
def addSsl (line : Bytes) : List Bytes :=
  let text := replaceAll (ascii "type=server") (ascii ("type=server\nssl=required\n" ++
    "ssl_cert=/###access_homedir###/certs/client-cert.pem\n" ++
    "ssl_key=/###access_homedir###/certs/client-key.pem\n" ++
    "ssl_ca_cert=/###access_homedir###/certs/ca.pem")) line
  Delimited.records nl text ++ [Delimited.unfinished nl text]

/-- The loop over the nodes of a backend. -/
def sedNodes (s : Setup) (mdn : Backend) (file : List Bytes) : List Bytes :=
  (List.range (s.mdn mdn).N).foldl
    (fun file i => sed s (sed s file (.serverIp mdn i)) (.serverPort mdn i)) file

/-- `process_template`, on the copy of the template. -/
def processTemplate (s : Setup) (template : List Bytes) : List Bytes :=
  let file := if s.backendSsl then template.flatMap addSsl else template
  let file := sed s file .threads
  let file := sedNodes s .galera (sedNodes s .repl file)
  let file := sed s (sed s file .accessUser) .accessHomedir
  if s.repl.v51 then sed s file .repl51 else file

/-! ### What the function should do -/

/-- The placeholders for the nodes of a backend. -/
def Setup.nodePlaceholders (s : Setup) (mdn : Backend) : List Placeholder :=
  (List.range (s.mdn mdn).N).flatMap fun i => [.serverIp mdn i, .serverPort mdn i]

/-- The placeholders that are documented. -/
def Setup.documented (s : Setup) : List Placeholder :=
  .threads :: (s.nodePlaceholders .repl ++ s.nodePlaceholders .galera) ++
    [.accessUser, .accessHomedir]

/-- These and, when a backend is of version 5.1, the one for its setting. -/
def Setup.placeholders (s : Setup) : List Placeholder :=
  s.documented ++ if s.repl.v51 then [.repl51] else []

/-- The text with all its placeholders replaced, each by its own value. -/
def instantiate (s : Setup) (ps : List Placeholder) (line : Bytes) : Bytes :=
  render s.value (pieces Placeholder.name ps line)

/-- No value holds a placeholder. -/
def ValuesFree (s : Setup) : Prop :=
  ∀ p ∈ s.placeholders, ∀ q ∈ s.placeholders, ¬ p.name <:+: s.value q

instance (s : Setup) : Decidable (ValuesFree s) :=
  inferInstanceAs (Decidable (∀ _ ∈ _, ∀ _ ∈ _, _))

/-- Without SSL, and when no value holds a placeholder, the documented placeholders are replaced
    and nothing else. -/
def Instantiates (s : Setup) (template : List Bytes) : Prop :=
  s.backendSsl = false → ValuesFree s →
    processTemplate s template = template.map (instantiate s s.documented)

instance (s : Setup) (template : List Bytes) : Decidable (Instantiates s template) :=
  inferInstanceAs (Decidable (_ → _ → _))

/-- No placeholder whose command lacks the flag `g` is there twice. -/
def NoneTwice (s : Setup) (line : Bytes) : Prop :=
  ∀ p ∈ s.placeholders, p.all = false →
    (pieces Placeholder.name s.placeholders line).count (.hole p) ≤ 1

instance (s : Setup) (line : Bytes) : Decidable (NoneTwice s line) :=
  inferInstanceAs (Decidable (∀ _ ∈ _, _))

/-- What a line shows for a placeholder when the first ones have been replaced. -/
def Setup.partly (s : Setup) (replaced : List Placeholder) (p : Placeholder) : Bytes :=
  if p ∈ replaced then s.value p else p.name

/-- When the first placeholders have been replaced, the next one is still where it was, and has not
    come up anywhere else. -/
def Undisturbed (s : Setup) (line : Bytes) : Prop :=
  ∀ replaced p rest, s.placeholders = replaced ++ p :: rest →
    Sole Placeholder.name (s.partly replaced) (pieces Placeholder.name s.placeholders line) p

/-- `#`. -/
def hash : UInt8 := 35

/-- Neither a letter nor a digit, nor `_` or `#`. -/
def Separator (c : UInt8) : Prop :=
  ¬ (isdigit c ∨ 65 ≤ c ∧ c ≤ 90 ∨ 97 ≤ c ∧ c ≤ 122 ∨ c = 95 ∨ c = hash)

instance : DecidablePred Separator := fun _ => inferInstanceAs (Decidable (¬ _))

/-- Between two placeholders of the line, and between a placeholder and another `#`, there is a
    separator. -/
def PlaceholdersApart (s : Setup) (line : Bytes) : Prop :=
  Apart hash Separator (pieces Placeholder.name s.placeholders line)

instance (s : Setup) (line : Bytes) : Decidable (PlaceholdersApart s line) :=
  inferInstanceAs (Decidable (Apart _ _ _))

/-! ### The names -/

/-- A placeholder without the number of the node. -/
inductive Kind where
  | threads
  | serverIp (mdn : Backend)
  | serverPort (mdn : Backend)
  | accessUser
  | accessHomedir
  | repl51
  deriving DecidableEq

def Placeholder.kind : Placeholder → Kind
  | .threads => .threads
  | .serverIp mdn _ => .serverIp mdn
  | .serverPort mdn _ => .serverPort mdn
  | .accessUser => .accessUser
  | .accessHomedir => .accessHomedir
  | .repl51 => .repl51

/-- What stands between the marks, up to the digits. -/
def Kind.stem : Kind → Bytes
  | .threads => ascii "threads"
  | .serverIp mdn => mdn.namePrefix ++ ascii "_server_IP_"
  | .serverPort mdn => mdn.namePrefix ++ ascii "_server_port_"
  | .accessUser => ascii "access_user"
  | .accessHomedir => ascii "access_homedir"
  | .repl51 => ascii "repl"

/-- The digits at the end. -/
def Placeholder.digits : Placeholder → Bytes
  | .serverIp _ i | .serverPort _ i => Decimal.ofNat (i + 1)
  | .repl51 => ascii "51"
  | _ => []

theorem name_eq (p : Placeholder) : p.name =
    List.replicate 3 hash ++ (p.kind.stem ++ p.digits) ++ List.replicate 3 hash := by
  cases p with
  | serverIp mdn i =>
    simp only [Placeholder.name, Placeholder.kind, Kind.stem, Placeholder.digits,
      List.append_assoc]
    rfl
  | serverPort mdn i =>
    simp only [Placeholder.name, Placeholder.kind, Kind.stem, Placeholder.digits,
      List.append_assoc]
    rfl
  | _ => rfl

theorem isdigit_of_mem_digits {p : Placeholder} {c : UInt8} (h : c ∈ p.digits) :
    isdigit c = true := by
  cases p with
  | serverIp mdn i => exact Decimal.isdigit_of_mem_ofNat h
  | serverPort mdn i => exact Decimal.isdigit_of_mem_ofNat h
  | repl51 =>
    have hall : ∀ c ∈ ascii "51", isdigit c = true := by decide +kernel
    exact hall c h
  | _ => cases h

/-- All kinds. -/
def kinds : List Kind :=
  [.threads, .serverIp .repl, .serverIp .galera, .serverPort .repl, .serverPort .galera,
    .accessUser, .accessHomedir, .repl51]

theorem mem_kinds (k : Kind) : k ∈ kinds := by
  cases k with
  | serverIp mdn => cases mdn <;> decide
  | serverPort mdn => cases mdn <;> decide
  | _ => decide

/-- The bytes of a stem. -/
theorem stem_bytes (k : Kind) : ∀ c ∈ k.stem, isdigit c = false ∧ c ≠ hash ∧ ¬ Separator c := by
  have hall : ∀ k ∈ kinds, ∀ c ∈ k.stem, isdigit c = false ∧ c ≠ hash ∧ ¬ Separator c := by
    decide +kernel
  exact hall k (mem_kinds k)

theorem stem_injective {k l : Kind} (h : k.stem = l.stem) : k = l := by
  have hall : ∀ k ∈ kinds, ∀ l ∈ kinds, k.stem = l.stem → k = l := by decide +kernel
  exact hall k (mem_kinds k) l (mem_kinds l) h

theorem digit_bytes {c : UInt8} (h : isdigit c = true) : c ≠ hash ∧ ¬ Separator c := by
  refine ⟨?_, fun hsep => hsep (.inl h)⟩
  rintro rfl
  cases h

theorem marked_name (p : Placeholder) : Marked hash 3 p.name := by
  refine ⟨p.kind.stem ++ p.digits, ?_, name_eq p⟩
  rw [List.mem_append, not_or]
  exact ⟨fun h => (stem_bytes p.kind hash h).2.1 rfl,
    fun h => (digit_bytes (isdigit_of_mem_digits h)).1 rfl⟩

theorem name_ne_nil (p : Placeholder) : p.name ≠ [] := by
  intro h
  obtain ⟨rest, hrest⟩ := (marked_name p).exists_cons (by decide)
  rw [h] at hrest
  cases hrest

theorem not_separator_of_mem_name {p : Placeholder} {c : UInt8} (h : c ∈ p.name) :
    ¬ Separator c := by
  have hhash : c ∈ List.replicate 3 hash → ¬ Separator c := by
    intro hc
    rw [List.eq_of_mem_replicate hc]
    decide
  rw [name_eq, List.mem_append, List.mem_append, List.mem_append] at h
  rcases h with (hc | hc | hc) | hc
  · exact hhash hc
  · exact (stem_bytes p.kind c hc).2.2
  · exact (digit_bytes (isdigit_of_mem_digits hc)).2
  · exact hhash hc

theorem ofNat_injective {m n : ℕ} (h : Decimal.ofNat m = Decimal.ofNat n) : m = n := by
  have hvalue := congrArg digitsValue h
  rw [Decimal.digitsValue_ofNat, Decimal.digitsValue_ofNat] at hvalue
  exact_mod_cast hvalue

/-- A placeholder is known from its kind and its digits. -/
theorem eq_of_kind {p q : Placeholder} (hkind : p.kind = q.kind) (hdigits : p.digits = q.digits) :
    p = q := by
  cases p with
  | serverIp mdn i =>
    cases q <;> cases hkind
    have hi := ofNat_injective hdigits
    rw [Nat.succ.inj hi]
  | serverPort mdn i =>
    cases q <;> cases hkind
    have hi := ofNat_injective hdigits
    rw [Nat.succ.inj hi]
  | _ => cases q <;> first | rfl | cases hkind

/-- Placeholders are written differently. -/
theorem name_injective {p q : Placeholder} (h : p.name = q.name) : p = q := by
  rw [name_eq, name_eq, List.append_cancel_right_eq, List.append_cancel_left_eq] at h
  -- the stem ends where the digits start
  have hstem : ∀ p : Placeholder,
      (p.kind.stem ++ p.digits).takeWhile (!isdigit ·) = p.kind.stem := by
    intro p
    have hall : ∀ c ∈ p.kind.stem, (!isdigit c) = true := fun c hc => by
      simp [(stem_bytes p.kind c hc).1]
    rw [List.takeWhile_append_of_pos hall, List.takeWhile_eq_nil_iff.mpr, List.append_nil]
    intro hpos
    rw [isdigit_of_mem_digits (List.get_mem p.digits ⟨0, hpos⟩)]
    simp
  have hkind : p.kind.stem = q.kind.stem := by rw [← hstem p, h, hstem q]
  refine eq_of_kind (stem_injective hkind) ?_
  rw [hkind] at h
  exact List.append_cancel_left h

/-! ### The commands -/

section

variable {s : Setup}

theorem sedNodes_eq (s : Setup) (mdn : Backend) (file : List Bytes) :
    sedNodes s mdn file = (s.nodePlaceholders mdn).foldl (sed s) file := by
  rw [sedNodes, Setup.nodePlaceholders, List.foldl_flatMap]
  rfl

theorem foldl_sed (s : Setup) (ps : List Placeholder) (file : List Bytes) :
    ps.foldl (sed s) file = file.map fun line => ps.foldl (sedLine s) line := by
  induction ps generalizing file with
  | nil => exact (List.map_id file).symm
  | cons p ps ih =>
    rw [List.foldl_cons, ih, sed, List.map_map]
    rfl

/-- **The commands.** They run one after the other, and so they do on each line. -/
theorem processTemplate_eq (hssl : s.backendSsl = false) (template : List Bytes) :
    processTemplate s template
      = template.map fun line => s.placeholders.foldl (sedLine s) line := by
  rw [← foldl_sed, processTemplate, hssl, if_neg Bool.false_ne_true, sedNodes_eq, sedNodes_eq,
    Setup.placeholders, Setup.documented]
  simp only [List.foldl_append, List.foldl_cons, List.foldl_nil]
  split <;> rfl

theorem mem_nodePlaceholders {mdn : Backend} {p : Placeholder} :
    p ∈ s.nodePlaceholders mdn ↔
      ∃ i < (s.mdn mdn).N, p = .serverIp mdn i ∨ p = .serverPort mdn i := by
  simp [Setup.nodePlaceholders]

theorem nodePlaceholders_nodup (s : Setup) (mdn : Backend) : (s.nodePlaceholders mdn).Nodup := by
  rw [Setup.nodePlaceholders, List.nodup_flatMap]
  refine ⟨fun i _ => by simp, List.nodup_range.imp fun hne => ?_⟩
  simp [Function.onFun, List.disjoint_left, hne]

/-- No placeholder has two commands. -/
theorem placeholders_nodup (s : Setup) : s.placeholders.Nodup := by
  have hnodes : (s.nodePlaceholders .repl ++ s.nodePlaceholders .galera).Nodup := by
    refine List.nodup_append.mpr
      ⟨nodePlaceholders_nodup s _, nodePlaceholders_nodup s _, fun p hp q hq => ?_⟩
    obtain ⟨i, -, rfl | rfl⟩ := mem_nodePlaceholders.mp hp <;>
      obtain ⟨j, -, rfl | rfl⟩ := mem_nodePlaceholders.mp hq <;> simp
  have hfixed : ∀ p ∈ s.nodePlaceholders .repl ++ s.nodePlaceholders .galera,
      p ≠ .threads ∧ p ≠ .accessUser ∧ p ≠ .accessHomedir ∧ p ≠ .repl51 := by
    intro p hp
    rcases List.mem_append.mp hp with hp | hp <;>
      obtain ⟨i, -, rfl | rfl⟩ := mem_nodePlaceholders.mp hp <;> simp
  have hdocumented : s.documented.Nodup := by
    refine List.nodup_append.mpr
      ⟨List.nodup_cons.mpr ⟨fun hp => (hfixed _ hp).1 rfl, hnodes⟩, by simp, fun p hp q hq => ?_⟩
    rcases List.mem_cons.mp hp with rfl | hp
    · rintro rfl
      simp at hq
    · rintro rfl
      obtain ⟨-, huser, hhomedir, -⟩ := hfixed p hp
      simp [huser, hhomedir] at hq
  rw [Setup.placeholders]
  split
  · refine List.nodup_append.mpr ⟨hdocumented, by simp, fun p hp q hq => ?_⟩
    rw [List.mem_singleton.mp hq]
    rintro rfl
    rcases List.mem_append.mp hp with hp | hp
    · rcases List.mem_cons.mp hp with hp | hp
      · cases hp
      · exact (hfixed _ hp).2.2.2 rfl
    · simp at hp
  · rwa [List.append_nil]

/-! ### A line -/

/-- One command, where the placeholder is where it should be. -/
theorem sedLine_render {line : Bytes} {replaced : List Placeholder} {p : Placeholder}
    (hnew : p ∉ replaced)
    (hsole : Sole Placeholder.name (s.partly replaced)
      (pieces Placeholder.name s.placeholders line) p)
    (honce : p.all = false → (pieces Placeholder.name s.placeholders line).count (.hole p) ≤ 1) :
    sedLine s (render (s.partly replaced) (pieces Placeholder.name s.placeholders line)) p
      = render (s.partly (replaced ++ [p])) (pieces Placeholder.name s.placeholders line) := by
  have hshown : s.partly replaced p = p.name := if_neg hnew
  have hnext : s.partly (replaced ++ [p]) = Function.update (s.partly replaced) p (s.value p) := by
    funext q
    by_cases hq : q = p
    · subst hq
      rw [Function.update_self]
      exact if_pos (List.mem_append_right _ List.mem_cons_self)
    · rw [Function.update_of_ne hq, Setup.partly, Setup.partly]
      simp [hq]
  rw [hnext, sedLine]
  by_cases hall : p.all = true
  · rw [if_pos hall, replaceAll_render hsole hshown (name_ne_nil p)]
  · rw [if_neg hall, replaceFirst_render hsole hshown (name_ne_nil p)
      (honce (Bool.not_eq_true _ ▸ hall))]

/-- **A line.** The commands put in all values. -/
theorem sedAll_eq {line : Bytes} (honce : NoneTwice s line) (hsole : Undisturbed s line) :
    s.placeholders.foldl (sedLine s) line = instantiate s s.placeholders line := by
  have hname : ∀ p ∈ s.placeholders, p.name ≠ [] := fun p _ => name_ne_nil p
  have hnodup := placeholders_nodup s
  have hrun : ∀ rest replaced, s.placeholders = replaced ++ rest →
      rest.foldl (sedLine s)
        (render (s.partly replaced) (pieces Placeholder.name s.placeholders line))
      = render (s.partly s.placeholders) (pieces Placeholder.name s.placeholders line) := by
    intro rest
    induction rest with
    | nil =>
      intro replaced hsplit
      rw [List.append_nil] at hsplit
      rw [← hsplit]
      rfl
    | cons p rest ih =>
      intro replaced hsplit
      have hnew : p ∉ replaced := by
        intro hp
        rw [hsplit, List.nodup_append] at hnodup
        exact hnodup.2.2 p hp p List.mem_cons_self rfl
      have hmem : p ∈ s.placeholders := hsplit ▸ List.mem_append_right _ List.mem_cons_self
      rw [List.foldl_cons, sedLine_render hnew (hsole replaced p rest hsplit) (honce p hmem)]
      exact ih (replaced ++ [p]) (by rw [hsplit, List.append_assoc, List.singleton_append])
  have hstart : render (s.partly []) (pieces Placeholder.name s.placeholders line) = line :=
    render_pieces hname line
  have hend : render (s.partly s.placeholders) (pieces Placeholder.name s.placeholders line)
      = instantiate s s.placeholders line :=
    render_congr fun p hp => if_pos (mem_of_hole hname hp)
  rw [← hend, ← hrun s.placeholders [] rfl, hstart]

/-- **Placeholders that stand apart** do not get into each other's way. -/
theorem undisturbed_of_apart {line : Bytes} (hfree : ValuesFree s)
    (hapart : PlaceholdersApart s line) : Undisturbed s line := by
  intro replaced p rest hsplit
  have hp : p ∈ s.placeholders := hsplit ▸ List.mem_append_right _ List.mem_cons_self
  refine sole_of_apart (n := 3) (by decide) (fun q _ => marked_name q)
    (fun q _ c hc => not_separator_of_mem_name hc) (fun q _ heq => name_injective heq) hp
    (fun q hq => ?_) hapart
  by_cases hreplaced : q ∈ replaced
  · refine .inr ?_
    rw [Setup.partly, if_pos hreplaced]
    exact hfree p hp q hq
  · exact .inl (if_neg hreplaced)

end

/-! ### The file -/

/-- **Templates.** Without SSL, every placeholder is replaced by its own value and everything else
    stays, in a template where no line has one for the threads, an address or a port twice, and
    where the values do not make up new ones: which they do not where placeholders stand apart. -/
theorem process_template_instantiates (s : Setup) (template : List Bytes)
    (hssl : s.backendSsl = false)
    (h : ∀ line ∈ template, NoneTwice s line ∧
      (Undisturbed s line ∨ ValuesFree s ∧ PlaceholdersApart s line)) :
    processTemplate s template = template.map (instantiate s s.placeholders) := by
  rw [processTemplate_eq hssl]
  apply List.map_congr_left
  intro line hline
  obtain ⟨honce, hsole⟩ := h line hline
  refine sedAll_eq honce ?_
  rcases hsole with hsole | ⟨hfree, hapart⟩
  · exact hsole
  · exact undisturbed_of_apart hfree hapart

/-- A node of each backend, and so many threads. -/
def exampleSetup (threads : ℤ) (v51 : Bool) : Setup where
  threads := threads
  repl := ⟨1, fun _ => ⟨ascii "10.0.0.1", by decide +kernel⟩, fun _ => ⟨[], by decide +kernel⟩,
    fun _ => 3306, false, v51⟩
  galera := ⟨1, fun _ => ⟨ascii "10.0.0.2", by decide +kernel⟩, fun _ => ⟨[], by decide +kernel⟩,
    fun _ => 3307, false, false⟩
  maxscaleAccessUser := ⟨ascii "vagrant", by decide +kernel⟩
  maxscaleAccessHomedir := ⟨ascii "/home/vagrant", by decide +kernel⟩
  backendSsl := false

/-- A template in which placeholders stand apart. -/
theorem process_template_example :
    processTemplate (exampleSetup 16 true)
      [ascii "threads=###threads###",
        ascii "address=###node_server_IP_1###:###node_server_port_1###",
        ascii "home=/###access_homedir###/###access_homedir###", ascii "###repl51###"]
    = [ascii "threads=16", ascii "address=10.0.0.1:3306", ascii "home=//home/vagrant//home/vagrant",
        ascii "mysql51_replication=true"] := by
  have hfree : ValuesFree (exampleSetup 16 true) := by decide +kernel
  refine (process_template_instantiates _ _ rfl ?_).trans (by decide +kernel)
  have hlines : ∀ line ∈ [ascii "threads=###threads###",
      ascii "address=###node_server_IP_1###:###node_server_port_1###",
      ascii "home=/###access_homedir###/###access_homedir###", ascii "###repl51###"],
      NoneTwice (exampleSetup 16 true) line ∧ PlaceholdersApart (exampleSetup 16 true) line := by
    decide +kernel
  exact fun line hline => ⟨(hlines line hline).1, .inr ⟨hfree, (hlines line hline).2⟩⟩

/-- The setting for version 5.1 is not documented; of two placeholders for the threads in a line the
    second one stays; and a value can make up a placeholder with what stands around it. -/
theorem template_not_instantiated :
    ¬ Instantiates (exampleSetup 16 true) [ascii "###repl51###"] ∧
    ¬ Instantiates (exampleSetup 16 false) [ascii "###threads### of ###threads###"] ∧
    ¬ Instantiates (exampleSetup 1 false) [ascii "###node_server_IP_###threads######"] := by
  refine ⟨?_, ?_, ?_⟩ <;> decide +kernel

end MaxScaleSystemTest.Config.Template
