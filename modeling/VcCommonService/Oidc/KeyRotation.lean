import VcCommonService.Lib.Run
import VcCommonService.Oidc.SigningKeys

/-!
# Rotation of the signing keys

The script writes the new key set to a temporary file next to the old one and renames it into
place. Several runs of the script, crashes between their system calls, an operator who clears
away what a crash left, and servers that read the file are interleaved.
-/

namespace VcCommonService.OidcKeys

open Lib Lib.JsonText

/-! ### Files -/

/-- The two names in the directory, and what the files hold that were ever created. -/
structure Disk where
  file : Option ℕ
  tmp : Option ℕ
  content : ℕ → String
  next : ℕ
  file_lt : ∀ i ∈ file, i < next
  tmp_lt : ∀ i ∈ tmp, i < next
  distinct : ∀ i ∈ file, i ∉ tmp

namespace Disk

def text (disk : Disk) : Option String := disk.file.map disk.content

/-- An exclusive creation of the temporary file. -/
def create (disk : Disk) : Disk where
  file := disk.file
  tmp := some disk.next
  content := Function.update disk.content disk.next ""
  next := disk.next + 1
  file_lt i hi := Nat.lt_succ_of_lt (disk.file_lt i hi)
  tmp_lt i hi := by
    cases hi
    exact Nat.lt_succ_self _
  distinct i hi htmp := by
    cases htmp
    exact Nat.lt_irrefl _ (disk.file_lt _ hi)

def write (disk : Disk) (inode : ℕ) (cs : List Char) : Disk :=
  { disk with
    content := Function.update disk.content inode (disk.content inode ++ String.ofList cs) }

def rename (disk : Disk) (inode : ℕ) (h : disk.tmp = some inode) : Disk where
  file := some inode
  tmp := none
  content := disk.content
  next := disk.next
  file_lt i hi := by
    cases hi
    exact disk.tmp_lt _ h
  tmp_lt _ hi := nomatch hi
  distinct _ _ hi := nomatch hi

def removeTmp (disk : Disk) : Disk where
  file := disk.file
  tmp := none
  content := disk.content
  next := disk.next
  file_lt := disk.file_lt
  tmp_lt _ hi := nomatch hi
  distinct _ _ hi := nomatch hi

theorem text_congr {disk disk' : Disk} (hfile : disk'.file = disk.file)
    (hcontent : ∀ i ∈ disk.file, disk'.content i = disk.content i) : disk'.text = disk.text := by
  rw [text, text, hfile]
  exact Option.map_congr hcontent

theorem text_create (disk : Disk) : disk.create.text = disk.text :=
  text_congr rfl fun i hi => Function.update_of_ne (Nat.ne_of_lt (disk.file_lt i hi)) ..

theorem text_write {disk : Disk} {inode : ℕ} (h : disk.tmp = some inode) (cs : List Char) :
    (disk.write inode cs).text = disk.text := by
  refine text_congr rfl fun i hi => Function.update_of_ne ?_ ..
  rintro rfl
  exact disk.distinct i hi h

@[simp] theorem content_create (disk : Disk) : disk.create.content disk.next = "" :=
  Function.update_self ..

@[simp] theorem content_write (disk : Disk) (inode : ℕ) (cs : List Char) :
    (disk.write inode cs).content inode = disk.content inode ++ String.ofList cs :=
  Function.update_self ..

end Disk

/-- What a server that starts now finds; the file is there, so it is read in every environment. -/
def loads (cause : Option String → String) (disk : Disk) : Except String Json :=
  readAndValidate cause disk.text

inductive Pc where
  | idle
  | ready (keys : List Json)
  | writing (inode : ℕ) (keys : List Json) (unsent : List Char)
  | written (inode : ℕ) (keys : List Json)
  | done
  | failed (message : String)

inductive Event where
  | start (argv : List String) (jwk : PrivateJwk) (kid : Uuid)
  | create
  | write (count : ℕ)
  | rename
  | fail (message : String)
  | crash
  | removeTmp

/-- The run up to its first system call that writes. -/
def begin (path : String) (cause : Option String → String) (disk : Disk) (argv : List String)
    (jwk : PrivateJwk) (kid : Uuid) : Option Pc :=
  match parseArgs argv with
  | .error message => some (.failed message)
  | .ok args =>
    match newKeys args (generateSigningKey jwk kid) kid (readJson cause disk.text) with
    | .error message => some (.failed message)
    | .ok keys =>
      match Js.truthy args.path with
      | none => some .done
      | some target => if target = path then some (.ready keys) else none

/-- Runs of the script for one `path`. -/
def act (path : String) (cause : Option String → String) (disk : Disk) :
    Pc → Event → Option (Disk × Pc)
  | .idle, .start argv jwk kid => (begin path cause disk argv jwk kid).map fun pc => (disk, pc)
  | .ready keys, .create =>
    match disk.tmp with
    | some _ => some (disk, .failed ("Refusing to overwrite existing temp file " ++ path ++
        ".tmp. Remove it and retry."))
    | none => some (disk.create, .writing disk.next keys (jwksText keys).toList)
  | .writing inode keys unsent, .write count => some (disk.write inode (unsent.take count),
      if (unsent.drop count).isEmpty then .written inode keys
      else .writing inode keys (unsent.drop count))
  | .written _ _, .rename =>
    match h : disk.tmp with
    | some inode => some (disk.rename inode h, .done)
    | none => some (disk, .failed ("ENOENT: no such file or directory, rename '" ++ path ++
        ".tmp' -> '" ++ path ++ "'"))
  | .ready _, .fail message => some (disk, .failed message)
  -- `created` is not set yet, so what was written of the temporary file stays
  | .writing _ _ _, .fail message => some (disk, .failed message)
  | .written _ _, .fail message => some (disk.removeTmp, .failed message)
  | .ready _, .crash => some (disk, .failed "killed")
  | .writing _ _ _, .crash => some (disk, .failed "killed")
  | .written _ _, .crash => some (disk, .failed "killed")
  -- the operator
  | .idle, .removeTmp => some (disk.removeTmp, .done)
  | _, _ => none

abbrev World := Run.World Disk Pc

abbrev step (path : String) (cause : Option String → String) :
    World → ℕ × Event → Option World :=
  Run.interleave (act path cause)

/-! ### What is served -/

/-- The keys that a server which starts now signs and verifies with. -/
def Served (cause : Option String → String) (disk : Disk) (keys : List Json) : Prop :=
  ∃ doc, loads cause disk = .ok doc ∧ keysOf doc = some keys

theorem served_unique {cause : Option String → String} {disk : Disk} {keys keys' : List Json}
    (h : Served cause disk keys) (h' : Served cause disk keys') : keys = keys' := by
  obtain ⟨doc, hdoc, hkeys⟩ := h
  obtain ⟨doc', hdoc', hkeys'⟩ := h'
  cases hdoc.symm.trans hdoc'
  exact Option.some.inj (hkeys.symm.trans hkeys')

theorem served_congr {cause : Option String → String} {disk disk' : Disk} {keys : List Json}
    (h : disk'.text = disk.text) : Served cause disk' keys ↔ Served cause disk keys := by
  rw [Served, loads, h]
  rfl

theorem served_of_text {cause : Option String → String} {disk : Disk} {keys : List Json}
    (hset : KeySet keys) (h : disk.text = some (jwksText keys)) : Served cause disk keys := by
  have hvalues : ∀ key ∈ keys, IsValue key := fun key hkey => (hset.signing key hkey).value
  have hkeys := keysOf_jwksDocument hset.nonempty
  refine ⟨jwksDocument keys, ?_, hkeys⟩
  rw [loads, readAndValidate, readJson, h, Option.bind_some, parse_jwksText hvalues]
  dsimp only
  rw [(validate_iff hkeys hvalues).mpr hset.signing]
  rfl

theorem readJson_of_served {cause : Option String → String} {disk : Disk} {keys : List Json}
    (h : Served cause disk keys) :
    ∃ doc, readJson cause disk.text = .ok doc ∧ keysOf doc = some keys := by
  obtain ⟨doc, hdoc, hkeys⟩ := h
  refine ⟨doc, ?_, hkeys⟩
  unfold loads readAndValidate at hdoc
  cases hread : readJson cause disk.text with
  | error message =>
    rw [hread] at hdoc
    cases hdoc
  | ok doc' =>
    rw [hread] at hdoc
    dsimp only at hdoc
    cases hvalid : validate doc' with
    | error message =>
      rw [hvalid] at hdoc
      cases hdoc
    | ok u =>
      rw [hvalid] at hdoc
      exact hdoc

/-! ### Steps -/

/-- The file that a run has created and not yet renamed or removed. -/
def Pc.inode : Pc → Option ℕ
  | .writing inode _ _ => some inode
  | .written inode _ => some inode
  | _ => none

def Pc.keys : Pc → Option (List Json)
  | .ready keys => some keys
  | .writing _ keys _ => some keys
  | .written _ keys => some keys
  | _ => none

section Runs

variable {path : String} {cause : Option String → String}

/-- What a step of one run can do. -/
inductive Effect (path : String) (cause : Option String → String) (disk : Disk) :
    Pc → Event → Disk → Pc → Prop
  | start {argv jwk kid pc} (h : begin path cause disk argv jwk kid = some pc) :
      Effect path cause disk .idle (.start argv jwk kid) disk pc
  | stop {pc e} (message) (hstart : ∀ argv jwk kid, e ≠ .start argv jwk kid)
      (hrename : e = .rename → pc.inode.isSome = true ∧ disk.tmp = none) :
      Effect path cause disk pc e disk (.failed message)
  | create {keys} (h : disk.tmp = none) :
      Effect path cause disk (.ready keys) .create disk.create
        (.writing disk.next keys (jwksText keys).toList)
  | write (inode keys unsent count) (last : (unsent.drop count).isEmpty = false) :
      Effect path cause disk (.writing inode keys unsent) (.write count)
        (disk.write inode (unsent.take count)) (.writing inode keys (unsent.drop count))
  | finish (inode keys unsent count) (last : (unsent.drop count).isEmpty = true) :
      Effect path cause disk (.writing inode keys unsent) (.write count)
        (disk.write inode (unsent.take count)) (.written inode keys)
  | rename {inode other keys} (h : disk.tmp = some inode) :
      Effect path cause disk (.written other keys) .rename (disk.rename inode h) .done
  | cleanUp (inode keys message) :
      Effect path cause disk (.written inode keys) (.fail message) disk.removeTmp (.failed message)
  | removeTmp : Effect path cause disk .idle .removeTmp disk.removeTmp .done

theorem effect_of_act {disk disk' : Disk} {pc pc' : Pc} {e : Event}
    (h : act path cause disk pc e = some (disk', pc')) : Effect path cause disk pc e disk' pc' := by
  unfold act at h
  split at h
  case h_1 =>
    obtain ⟨pc, hbegin, heq⟩ := Option.map_eq_some_iff.mp h
    cases heq
    exact .start hbegin
  case h_2 =>
    split at h
    · cases h
      exact .stop _ nofun nofun
    · next htmp =>
      cases h
      exact .create htmp
  case h_3 =>
    split at h
    · next hlast =>
      cases h
      exact .finish _ _ _ _ hlast
    · next hlast =>
      cases h
      exact .write _ _ _ _ (Bool.eq_false_iff.mpr hlast)
  case h_4 =>
    split at h
    · next htmp =>
      cases h
      exact .rename htmp
    · next htmp =>
      cases h
      exact .stop _ nofun fun _ => ⟨rfl, htmp⟩
  case h_7 =>
    cases h
    exact .cleanUp ..
  case h_11 =>
    cases h
    exact .removeTmp
  case h_12 => cases h
  all_goals
    cases h
    exact .stop _ nofun nofun

theorem begin_cases {disk : Disk} {argv : List String} {jwk : PrivateJwk} {kid : Uuid} {pc : Pc}
    (h : begin path cause disk argv jwk kid = some pc) :
    (∃ message, pc = .failed message) ∨ pc = .done ∨ ∃ keys, pc = .ready keys := by
  unfold begin at h
  split at h
  · exact Or.inl ⟨_, (Option.some.inj h).symm⟩
  split at h
  · exact Or.inl ⟨_, (Option.some.inj h).symm⟩
  split at h
  · exact Or.inr (Or.inl (Option.some.inj h).symm)
  split at h
  · exact Or.inr (Or.inr ⟨_, (Option.some.inj h).symm⟩)
  · cases h

theorem begin_inode {disk : Disk} {argv : List String} {jwk : PrivateJwk} {kid : Uuid} {pc : Pc}
    (h : begin path cause disk argv jwk kid = some pc) : pc.inode = none := by
  rcases begin_cases h with ⟨message, rfl⟩ | rfl | ⟨keys, rfl⟩ <;> rfl

/-- A run with `--append` writes its new key in front of what is served when it starts. -/
theorem begin_append {disk : Disk} {argv : List String} {keys : List Json}
    (hargs : parseArgs argv = .ok ⟨true, some path⟩) (hpath : path ≠ "")
    (hserved : Served cause disk keys) (hset : KeySet keys) (jwk : PrivateJwk) (kid : Uuid) :
    begin path cause disk argv jwk kid = some (if hasKid keys kid then
      .failed "Generated kid collided with an existing key; re-run."
      else .ready (generateSigningKey jwk kid :: keys)) := by
  obtain ⟨doc, hread, hkeys⟩ := readJson_of_served hserved
  have hexisting : readExistingKeys path (.ok doc) = .ok keys := by
    have hchecked : checkKeys path [] keys = .ok () :=
      checkKeys_ok path hset.signing hset.nodup nofun
    rw [readExistingKeys, hkeys]
    dsimp only
    rw [hchecked]
    rfl
  have hnew : newKeys ⟨true, some path⟩ (generateSigningKey jwk kid) kid (.ok doc) =
      if hasKid keys kid then
        .error "Generated kid collided with an existing key; re-run."
      else .ok (generateSigningKey jwk kid :: keys) := by
    rw [newKeys, if_pos rfl, Js.truthy_some hpath]
    dsimp only
    rw [hexisting]
  rw [begin, hargs]
  dsimp only
  rw [hread, hnew]
  by_cases hkid : hasKid keys kid = true
  · rw [if_pos hkid, if_pos hkid]
  · rw [if_neg hkid, if_neg hkid]
    dsimp only
    rw [Js.truthy_some hpath]
    dsimp only
    rw [if_pos rfl]

theorem keySet_cons {jwk : PrivateJwk} {kid : Uuid} {keys : List Json} (hset : KeySet keys)
    (hkid : ¬ hasKid keys kid = true) : KeySet (generateSigningKey jwk kid :: keys) where
  nonempty := List.cons_ne_nil _ _
  signing := List.forall_mem_cons.mpr ⟨signingKey_generated jwk kid, hset.signing⟩
  nodup := List.nodup_cons.mpr ⟨fun hmem => hkid (decide_eq_true hmem), hset.nodup⟩

/-! ### Invariant -/

/-- A key set that the initial keys have been rotated into. -/
structure Rotated (initial keys : List Json) : Prop where
  keySet : KeySet keys
  suffix : initial <:+ keys

structure RunInv (initial : List Json) (disk : Disk) (pc : Pc) : Prop where
  rotated : ∀ keys ∈ pc.keys, Rotated initial keys
  owns : ∀ inode ∈ pc.inode, disk.tmp = some inode
  sent : ∀ inode keys unsent, pc = .writing inode keys unsent →
    disk.content inode ++ String.ofList unsent = jwksText keys
  complete : ∀ inode keys, pc = .written inode keys → disk.content inode = jwksText keys

theorem RunInv.of_inode_none {initial : List Json} {disk : Disk} {pc : Pc} (h : pc.inode = none)
    (hkeys : ∀ keys ∈ pc.keys, Rotated initial keys) : RunInv initial disk pc where
  rotated := hkeys
  owns inode hi := by
    rw [h] at hi
    cases hi
  sent inode keys unsent hpc := by
    rw [hpc] at h
    cases h
  complete inode keys hpc := by
    rw [hpc] at h
    cases h

structure Inv (cause : Option String → String) (initial : List Json) (w : World) : Prop where
  served : ∃ keys, Served cause w.db keys ∧ Rotated initial keys
  calls : ∀ i, RunInv initial w.db (w.calls i)
  one : ∀ i j, (w.calls i).inode.isSome → (w.calls j).inode.isSome → i = j

/-- Runs rotate the file at `path`, and the operator removes a temporary file only when the run
that created it is gone. -/
def Careful (path : String) (w : World) (l : ℕ × Event) (_ : World) : Prop :=
  match l.2 with
  | .start argv _ _ => parseArgs argv = .ok ⟨true, some path⟩
  | .removeTmp => ∀ i, (w.calls i).inode = none
  | _ => True

/-- What one step does to the keys that are served. -/
def ServedStep (cause : Option String → String) (initial : List Json) (w : World) (l : ℕ × Event)
    (w' : World) : Prop :=
  ∀ keys, Served cause w.db keys →
    match l.2 with
    | .rename =>
      ∃ new, (w.calls l.1).keys = some new ∧ Served cause w'.db new ∧ Rotated initial new
    | .start _ jwk kid => Served cause w'.db keys ∧ (w'.calls l.1).keys =
        if hasKid keys kid then none else some (generateSigningKey jwk kid :: keys)
    | _ => Served cause w'.db keys

theorem text_effect {disk disk' : Disk} {pc pc' : Pc} {e : Event}
    (howns : ∀ inode ∈ pc.inode, disk.tmp = some inode)
    (h : Effect path cause disk pc e disk' pc') (he : e ≠ .rename) : disk'.text = disk.text := by
  cases h with
  | start => rfl
  | stop => rfl
  | create => exact Disk.text_create disk
  | write inode => exact Disk.text_write (howns inode rfl) _
  | finish inode => exact Disk.text_write (howns inode rfl) _
  | rename => exact absurd rfl he
  | cleanUp => rfl
  | removeTmp => rfl

/-- Where another run holds the temporary file, a run that does not hold it leaves the disk. -/
theorem disk_effect {disk disk' : Disk} {pc pc' : Pc} {e : Event} (hpc : pc.inode = none)
    (htmp : disk.tmp ≠ none) (he : e ≠ .removeTmp) (h : Effect path cause disk pc e disk' pc') :
    disk' = disk := by
  cases h with
  | start => rfl
  | stop => rfl
  | create hnone => exact absurd hnone htmp
  | write => cases hpc
  | finish => cases hpc
  | rename => cases hpc
  | cleanUp => cases hpc
  | removeTmp => exact absurd rfl he

/-- A run gets the temporary file only where there is none. -/
theorem inode_effect {disk disk' : Disk} {pc pc' : Pc} {e : Event}
    (h : Effect path cause disk pc e disk' pc') (hinode : pc'.inode.isSome = true) :
    pc.inode.isSome = true ∨ disk.tmp = none := by
  cases h with
  | start hbegin =>
    rw [begin_inode hbegin] at hinode
    cases hinode
  | stop => cases hinode
  | create htmp => exact Or.inr htmp
  | write => exact Or.inl rfl
  | finish => exact Or.inl rfl
  | rename => cases hinode
  | cleanUp => cases hinode
  | removeTmp => cases hinode

theorem runInv_effect {initial : List Json} {disk disk' : Disk} {pc pc' : Pc} {e : Event}
    (hinv : RunInv initial disk pc) (hstart : pc = .idle → ∀ keys ∈ pc'.keys, Rotated initial keys)
    (h : Effect path cause disk pc e disk' pc') : RunInv initial disk' pc' := by
  cases h with
  | start hbegin => exact .of_inode_none (begin_inode hbegin) (hstart rfl)
  | stop => exact .of_inode_none rfl nofun
  | rename => exact .of_inode_none rfl nofun
  | cleanUp => exact .of_inode_none rfl nofun
  | removeTmp => exact .of_inode_none rfl nofun
  | @create keys htmp =>
    refine ⟨hinv.rotated, fun inode hi => hi, ?_, nofun⟩
    intro inode keys' unsent hpc
    cases hpc
    rw [Disk.content_create, String.empty_append, String.ofList_toList]
  | write inode keys unsent count =>
    refine ⟨hinv.rotated, hinv.owns, ?_, nofun⟩
    intro inode' keys' unsent' hpc
    cases hpc
    rw [Disk.content_write, String.append_assoc, ← String.ofList_append, List.take_append_drop]
    exact hinv.sent inode keys unsent rfl
  | finish inode keys unsent count hlast =>
    refine ⟨hinv.rotated, hinv.owns, nofun, ?_⟩
    intro inode' keys' hpc
    cases hpc
    have hall := List.take_append_drop count unsent
    rw [List.isEmpty_iff.mp hlast, List.append_nil] at hall
    rw [Disk.content_write, hall]
    exact hinv.sent inode keys unsent rfl

theorem served_rename {initial : List Json} {disk disk' : Disk} {pc pc' : Pc}
    (hinv : RunInv initial disk pc) (h : Effect path cause disk pc .rename disk' pc') :
    ∃ new, pc.keys = some new ∧ Served cause disk' new ∧ Rotated initial new := by
  cases h with
  | stop message _ hrename =>
    obtain ⟨hinode, htmp⟩ := hrename rfl
    obtain ⟨inode, hinode⟩ := Option.isSome_iff_exists.mp hinode
    cases (hinv.owns inode hinode).symm.trans htmp
  | @rename inode other keys htmp =>
    have hsame : other = inode := Option.some.inj ((hinv.owns other rfl).symm.trans htmp)
    have htext : (disk.rename inode htmp).text = some (jwksText keys) := by
      rw [← hinv.complete other keys rfl, hsame]
      rfl
    have hrotated := hinv.rotated keys rfl
    exact ⟨keys, rfl, served_of_text hrotated.keySet htext, hrotated⟩

theorem served_step {initial : List Json} {w w' : World} {l : ℕ × Event} (hpath : path ≠ "")
    (hinv : Inv cause initial w) (hc : Careful path w l w') {disk' : Disk} {pc' : Pc}
    (heff : Effect path cause w.db (w.calls l.1) l.2 disk' pc')
    (hw' : w' = ⟨disk', Function.update w.calls l.1 pc'⟩) : ServedStep cause initial w l w' := by
  obtain ⟨i, e⟩ := l
  subst hw'
  intro keys hkeys
  have hset : Rotated initial keys := by
    obtain ⟨keys', hkeys', hrotated⟩ := hinv.served
    exact served_unique hkeys' hkeys ▸ hrotated
  have hsame : e ≠ .rename → Served cause disk' keys :=
    fun he => (served_congr (text_effect (hinv.calls i).owns heff he)).mpr hkeys
  cases e with
  | rename => exact served_rename (hinv.calls i) heff
  | start argv jwk kid =>
    refine ⟨hsame nofun, ?_⟩
    dsimp only
    rw [Function.update_self]
    generalize w.calls i = pc at heff
    cases heff with
    | start hbegin =>
      rw [begin_append hc hpath hkeys hset.keySet] at hbegin
      rw [← Option.some.inj hbegin]
      split
      · rfl
      · rfl
    | stop message hstart => exact absurd rfl (hstart argv jwk kid)
  | create => exact hsame nofun
  | write => exact hsame nofun
  | fail => exact hsame nofun
  | crash => exact hsame nofun
  | removeTmp => exact hsame nofun

theorem rotated_start {initial keys : List Json} {w w' : World} {i : ℕ} {e : Event} {disk' : Disk}
    {pc' : Pc} (hpath : path ≠ "") (hc : Careful path w (i, e) w')
    (hkeys : Served cause w.db keys) (hset : Rotated initial keys)
    (heff : Effect path cause w.db .idle e disk' pc') :
    ∀ keys' ∈ pc'.keys, Rotated initial keys' := by
  intro keys' hkeys'
  cases heff with
  | stop => cases hkeys'
  | removeTmp => cases hkeys'
  | @start argv jwk kid _ hbegin =>
    rw [begin_append hc hpath hkeys hset.keySet] at hbegin
    rw [← Option.some.inj hbegin] at hkeys'
    split at hkeys'
    · cases hkeys'
    · next hkid =>
      cases hkeys'
      exact ⟨keySet_cons hset.keySet hkid, hset.suffix.trans (List.suffix_cons ..)⟩

theorem served_of_step {initial keys : List Json} {w w' : World} {l : ℕ × Event}
    (h : ServedStep cause initial w l w') (hkeys : Served cause w.db keys)
    (hset : Rotated initial keys) : ∃ keys', Served cause w'.db keys' ∧ Rotated initial keys' := by
  obtain ⟨i, e⟩ := l
  have hnew := h keys hkeys
  cases e with
  | rename =>
    obtain ⟨new, -, hserved, hrotated⟩ := hnew
    exact ⟨new, hserved, hrotated⟩
  | start => exact ⟨keys, hnew.1, hset⟩
  | create => exact ⟨keys, hnew, hset⟩
  | write => exact ⟨keys, hnew, hset⟩
  | fail => exact ⟨keys, hnew, hset⟩
  | crash => exact ⟨keys, hnew, hset⟩
  | removeTmp => exact ⟨keys, hnew, hset⟩

theorem inv_step {initial : List Json} {w w' : World} {l : ℕ × Event} (hpath : path ≠ "")
    (hinv : Inv cause initial w) (hs : step path cause w l = some w')
    (hc : Careful path w l w') : Inv cause initial w' ∧ ServedStep cause initial w l w' := by
  obtain ⟨disk', pc', hact, hw'⟩ := Run.interleave_cases hs
  have heff := effect_of_act hact
  have hserved := served_step hpath hinv hc heff hw'
  refine ⟨?_, hserved⟩
  obtain ⟨i, e⟩ := l
  subst hw'
  obtain ⟨keys, hkeys, hset⟩ := hinv.served
  have hstart : w.calls i = .idle → ∀ keys' ∈ pc'.keys, Rotated initial keys' :=
    fun hidle => rotated_start hpath hc hkeys hset (hidle ▸ heff)
  have hown := runInv_effect (hinv.calls i) hstart heff
  -- while another run holds the temporary file, this step neither takes it nor touches the disk
  have hothers : ∀ j, j ≠ i → (w.calls j).inode.isSome = true → pc'.inode = none ∧ disk' = w.db := by
    intro j hj hinode
    obtain ⟨inode, hinode⟩ := Option.isSome_iff_exists.mp hinode
    have htmp : w.db.tmp ≠ none := by
      rw [(hinv.calls j).owns inode hinode]
      exact Option.some_ne_none _
    have hidle : (w.calls i).inode = none := by
      by_contra hne
      exact hj (hinv.one j i (hinode ▸ rfl) (Option.isSome_iff_ne_none.mpr hne))
    have he : e ≠ .removeTmp := by
      rintro rfl
      cases (hc j).symm.trans hinode
    refine ⟨?_, disk_effect hidle htmp he heff⟩
    by_contra hne
    rcases inode_effect heff (Option.isSome_iff_ne_none.mpr hne) with h | h
    · rw [hidle] at h
      cases h
    · exact htmp h
  refine ⟨?_, fun j => ?_, fun j k hj hk => ?_⟩
  · exact served_of_step hserved hkeys hset
  · dsimp only
    by_cases hj : j = i
    · subst hj
      simpa only [Function.update_self] using hown
    · rw [Function.update_of_ne hj]
      cases hinode : (w.calls j).inode with
      | none => exact .of_inode_none hinode (hinv.calls j).rotated
      | some inode =>
        rw [(hothers j hj (hinode ▸ rfl)).2]
        exact hinv.calls j
  · dsimp only at hj hk
    by_cases hj' : j = i <;> by_cases hk' : k = i
    · exact hj'.trans hk'.symm
    · subst hj'
      rw [Function.update_of_ne hk'] at hk
      rw [Function.update_self, (hothers k hk' hk).1] at hj
      cases hj
    · subst hk'
      rw [Function.update_of_ne hj'] at hj
      rw [Function.update_self, (hothers j hj' hj).1] at hk
      cases hk
    · rw [Function.update_of_ne hj'] at hj
      rw [Function.update_of_ne hk'] at hk
      exact hinv.one j k hj hk

/-! ### One rotation among others -/

/-- From its start on a run has no other keys than `keys`. -/
def Writes (a : ℕ) (keys : List Json) (w : World) : Prop :=
  w.calls a ≠ .idle ∧ ∀ keys' ∈ (w.calls a).keys, keys' = keys

theorem keys_effect {disk disk' : Disk} {pc pc' : Pc} {e : Event} {keys : List Json}
    (h : Effect path cause disk pc e disk' pc') (hidle : pc ≠ .idle)
    (hkeys : ∀ keys' ∈ pc.keys, keys' = keys) :
    pc' ≠ .idle ∧ ∀ keys' ∈ pc'.keys, keys' = keys := by
  cases h with
  | start => exact absurd rfl hidle
  | stop => exact ⟨nofun, nofun⟩
  | create => exact ⟨nofun, hkeys⟩
  | write => exact ⟨nofun, hkeys⟩
  | finish => exact ⟨nofun, hkeys⟩
  | rename => exact ⟨nofun, nofun⟩
  | cleanUp => exact ⟨nofun, nofun⟩
  | removeTmp => exact absurd rfl hidle

theorem writes_step {a : ℕ} {keys : List Json} {w w' : World} {l : ℕ × Event}
    (h : Writes a keys w) (hs : step path cause w l = some w') : Writes a keys w' := by
  obtain ⟨disk', pc', hact, rfl⟩ := Run.interleave_cases hs
  unfold Writes
  dsimp only
  by_cases ha : a = l.1
  · subst ha
    rw [Function.update_self]
    exact keys_effect (effect_of_act hact) h.1 h.2
  · rw [Function.update_of_ne ha]
    exact h

theorem idle_of_start {w w' : World} {a : ℕ} {argv : List String} {jwk : PrivateJwk} {kid : Uuid}
    (hs : step path cause w (a, .start argv jwk kid) = some w') : w'.calls a ≠ .idle := by
  obtain ⟨disk', pc', hact, rfl⟩ := Run.interleave_cases hs
  have heff := effect_of_act hact
  dsimp only at heff ⊢
  rw [Function.update_self]
  generalize w.calls a = pc at heff
  cases heff with
  | start hbegin => rcases begin_cases hbegin with ⟨message, rfl⟩ | rfl | ⟨keys, rfl⟩ <;> nofun
  | stop => nofun

theorem inv_of_idle {w : World} (hidle : ∀ i, w.calls i = .idle) {initial : List Json}
    (hserved : Served cause w.db initial) (hset : KeySet initial) : Inv cause initial w := by
  refine ⟨⟨initial, hserved, hset, List.suffix_rfl⟩, fun i => ?_, fun i j hi => ?_⟩
  · rw [hidle i]
    exact .of_inode_none rfl nofun
  · rw [hidle i] at hi
    cases hi

theorem inv_final {initial : List Json} (hpath : path ≠ "") {w w' : World}
    (hinv : Inv cause initial w) {run : List (ℕ × Event)}
    (hrun : Run.All (step path cause) (Careful path) w run)
    (hfinal : Run.final (step path cause) w run = some w') : Inv cause initial w' :=
  Run.final_of_invariant (Inv cause initial)
    (fun _ _ _ hv hs hc => (inv_step hpath hv hs hc).1) hinv hrun hfinal

/-- In every interleaving of rotations, crashes and failures the file is one that a server boots
from, with the initial keys last. Only a rename changes the keys that are served, to the keys of
the run that renames: its own in front of those that it had read when it started. -/
theorem rotation_keeps_keys (hpath : path ≠ "") {w : World} (hidle : ∀ i, w.calls i = .idle)
    {initial : List Json} (hserved : Served cause w.db initial) (hset : KeySet initial)
    {run : List (ℕ × Event)} (hrun : Run.All (step path cause) (Careful path) w run) :
    Run.All (step path cause) (ServedStep cause initial) w run ∧
      ∀ w', Run.final (step path cause) w run = some w' →
        ∃ keys, Served cause w'.db keys ∧ KeySet keys ∧ initial <:+ keys := by
  have hinit := inv_of_idle hidle hserved hset
  refine ⟨Run.all_of_invariant (Inv cause initial)
    (fun v l v' hv hs hc => inv_step hpath hv hs hc) hinit hrun, fun w' hfinal => ?_⟩
  have hinv := inv_final hpath hinit hrun hfinal
  obtain ⟨keys, hkeys, hrotated⟩ := hinv.served
  exact ⟨keys, hkeys, hrotated.keySet, hrotated.suffix⟩

/-- Where no run renames, the same keys are served before and after. -/
theorem served_final {initial keys : List Json} (hpath : path ≠ "") {w w' : World}
    (hinv : Inv cause initial w) {run : List (ℕ × Event)}
    (hrun : Run.All (step path cause) (Careful path) w run)
    (hrename : ∀ l ∈ run, l.2 ≠ .rename) (hkeys : Served cause w.db keys)
    (hfinal : Run.final (step path cause) w run = some w') : Served cause w'.db keys := by
  have hlabels := Run.all_labels hrename hrun
  refine (Run.final_of_invariant (fun w => Inv cause initial w ∧ Served cause w.db keys) ?_
    ⟨hinv, hkeys⟩ hlabels hfinal).2
  rintro v l v' ⟨hv, hserved⟩ hs ⟨hc, hl⟩
  refine ⟨(inv_step hpath hv hs hc).1, ?_⟩
  obtain ⟨disk', pc', hact, rfl⟩ := Run.interleave_cases hs
  exact (served_congr (text_effect (hv.calls l.1).owns (effect_of_act hact) hl)).mpr hserved

theorem step_of_act {w : World} {a : ℕ} {e : Event} {disk' : Disk} {pc pc' : Pc}
    (hpc : w.calls a = pc) (h : act path cause w.db pc e = some (disk', pc')) :
    step path cause w (a, e) = some ⟨disk', Function.update w.calls a pc'⟩ := by
  rw [step, Run.interleave, hpc, h]
  rfl

/-- A rotation that no other run keeps from its temporary file goes through. -/
theorem rotation_alone (w : World) (a : ℕ) {argv : List String} (jwk : PrivateJwk) (kid : Uuid)
    {keys : List Json} (hargs : parseArgs argv = .ok ⟨true, some path⟩) (hpath : path ≠ "")
    (hidle : w.calls a = .idle) (htmp : w.db.tmp = none) (hserved : Served cause w.db keys)
    (hset : KeySet keys) (hkid : ¬ hasKid keys kid = true) : ∃ count w₁ w₂ w₃ w₄,
      step path cause w (a, .start argv jwk kid) = some w₁ ∧
      step path cause w₁ (a, .create) = some w₂ ∧
      step path cause w₂ (a, .write count) = some w₃ ∧
      step path cause w₃ (a, .rename) = some w₄ := by
  have hbegin := begin_append hargs hpath hserved hset jwk kid
  rw [if_neg hkid] at hbegin
  have hcreate : act path cause w.db (.ready (generateSigningKey jwk kid :: keys)) .create =
      some (w.db.create, .writing w.db.next (generateSigningKey jwk kid :: keys)
        (jwksText (generateSigningKey jwk kid :: keys)).toList) := by
    rw [act, htmp]
  let text := (jwksText (generateSigningKey jwk kid :: keys)).toList
  have hwrite : act path cause w.db.create
      (.writing w.db.next (generateSigningKey jwk kid :: keys) text) (.write text.length) =
        some (w.db.create.write w.db.next (text.take text.length),
          .written w.db.next (generateSigningKey jwk kid :: keys)) := by
    rw [act, List.drop_length]
    rfl
  exact ⟨text.length, _, _, _, _, step_of_act hidle (congrArg (Option.map _) hbegin),
    step_of_act (Function.update_self ..) hcreate, step_of_act (Function.update_self ..) hwrite,
    step_of_act (Function.update_self ..) rfl⟩

/-- A completed rotation leaves its new key in front of the keys that it read when it started, so
it loses exactly what other runs have put in place since; where there are none, it loses nothing. -/
theorem completed_rotation (hpath : path ≠ "") {w : World} (hidle : ∀ i, w.calls i = .idle)
    {initial : List Json} (hserved : Served cause w.db initial) (hset : KeySet initial)
    {before between : List (ℕ × Event)} {a : ℕ} {argv : List String} {jwk : PrivateJwk} {kid : Uuid}
    (hrun : Run.All (step path cause) (Careful path) w
      (before ++ (a, .start argv jwk kid) :: (between ++ [(a, .rename)])))
    {u v w' : World} (hu : Run.final (step path cause) w before = some u)
    (hv : Run.final (step path cause) u ((a, .start argv jwk kid) :: between) = some v)
    (hw' : step path cause v (a, .rename) = some w') {keys : List Json}
    (hkeys : Served cause u.db keys) :
    Served cause w'.db (generateSigningKey jwk kid :: keys) ∧
      ((∀ l ∈ between, l.2 ≠ .rename) → Served cause v.db keys) := by
  obtain ⟨hbefore, hafter⟩ := Run.all_append hrun hu
  have hinvU := inv_final hpath (inv_of_idle hidle hserved hset) hbefore hu
  obtain ⟨u', hu', hcu, hrest⟩ := hafter
  obtain ⟨u'', hu'', hv⟩ := Run.final_cons hv
  cases hu'.symm.trans hu''
  obtain ⟨hbetween, hlast⟩ := Run.all_append hrest hv
  obtain ⟨hinvU', hstep⟩ := inv_step hpath hinvU hu' hcu
  obtain ⟨hkeysU', hcalls⟩ := hstep keys hkeys
  have hinvV := inv_final hpath hinvU' hbetween hv
  refine ⟨?_, fun hrename => served_final hpath hinvU' hbetween hrename hkeysU' hv⟩
  have hwrites : Writes a (generateSigningKey jwk kid :: keys) u' := by
    refine ⟨idle_of_start hu', fun keys' hkeys' => ?_⟩
    rw [hcalls] at hkeys'
    split at hkeys'
    · cases hkeys'
    · exact (Option.some.inj hkeys').symm
  have hwritesV := Run.final_of_invariant (Writes a _)
    (fun _ _ _ h hs _ => writes_step h hs) hwrites hbetween hv
  obtain ⟨served, hservedV, -⟩ := hinvV.served
  obtain ⟨new, hnew, hservedW, -⟩ := (inv_step hpath hinvV hw' trivial).2 served hservedV
  rw [hwritesV.2 new hnew] at hservedW
  exact hservedW

end Runs

def smallJwk : PrivateJwk where
  n := "n"
  e := "AQAB"
  d := "d"
  p := "p"
  q := "q"
  dp := "dp"
  dq := "dq"
  qi := "qi"
  private_part h := List.cons_ne_nil 'd' [] (congrArg String.toList h)

def firstKeys : List Json := [generateSigningKey smallJwk Uuid.nil]

def firstWorld : World where
  db := {
    file := some 0
    tmp := none
    content := fun _ => jwksText firstKeys
    next := 1
    file_lt := fun _ hi => Option.some.inj hi ▸ Nat.one_pos
    tmp_lt := nofun
    distinct := nofun }
  calls _ := .idle

theorem keySet_firstKeys : KeySet firstKeys where
  nonempty := List.cons_ne_nil _ _
  signing := List.forall_mem_singleton.mpr (signingKey_generated smallJwk Uuid.nil)
  nodup := List.nodup_singleton _

theorem served_firstWorld : Served (fun _ => "") firstWorld.db firstKeys :=
  served_of_text keySet_firstKeys rfl

def secondStart : Event := .start ["--append", "keys.json"] smallJwk Uuid.max

theorem secondStart_careful (w w' : World) : Careful "keys.json" w (0, secondStart) w' := by
  have hargs : parseArgs ["--append", "keys.json"] = .ok ⟨true, some "keys.json"⟩ := by
    decide +kernel
  exact hargs

theorem second_rotation : ∃ count w₁ w₂ w₃ w₄,
    step "keys.json" (fun _ => "") firstWorld (0, secondStart) = some w₁ ∧
    step "keys.json" (fun _ => "") w₁ (0, .create) = some w₂ ∧
    step "keys.json" (fun _ => "") w₂ (0, .write count) = some w₃ ∧
    step "keys.json" (fun _ => "") w₃ (0, .rename) = some w₄ :=
  rotation_alone firstWorld 0 smallJwk Uuid.max (secondStart_careful firstWorld firstWorld)
    (by decide) rfl rfl served_firstWorld keySet_firstKeys (by decide +kernel)

theorem rotation_keeps_keys_second : ∃ count w', Run.final (step "keys.json" fun _ => "") firstWorld
    [(0, secondStart), (0, .create), (0, .write count), (0, .rename)] = some w' ∧
      ∃ keys, Served (fun _ => "") w'.db keys ∧ KeySet keys ∧ firstKeys <:+ keys := by
  obtain ⟨count, w₁, w₂, w₃, w₄, h₁, h₂, h₃, h₄⟩ := second_rotation
  have hrun : Run.All (step "keys.json" fun _ => "") (Careful "keys.json") firstWorld
      [(0, secondStart), (0, .create), (0, .write count), (0, .rename)] :=
    ⟨w₁, h₁, secondStart_careful .., w₂, h₂, trivial, w₃, h₃, trivial, w₄, h₄, trivial, trivial⟩
  have hfinal : Run.final (step "keys.json" fun _ => "") firstWorld
      [(0, secondStart), (0, .create), (0, .write count), (0, .rename)] = some w₄ := by
    simp [Run.final, h₁, h₂, h₃, h₄]
  exact ⟨count, w₄, hfinal, (rotation_keeps_keys (by decide) (fun _ => rfl) served_firstWorld
    keySet_firstKeys hrun).2 w₄ hfinal⟩

theorem completed_rotation_second : ∃ w : World,
    Served (fun _ => "") w.db (generateSigningKey smallJwk Uuid.max :: firstKeys) := by
  obtain ⟨count, w₁, w₂, w₃, w₄, h₁, h₂, h₃, h₄⟩ := second_rotation
  have hrun : Run.All (step "keys.json" fun _ => "") (Careful "keys.json") firstWorld
      ([] ++ (0, secondStart) :: ([(0, .create), (0, .write count)] ++ [(0, .rename)])) :=
    ⟨w₁, h₁, secondStart_careful .., w₂, h₂, trivial, w₃, h₃, trivial, w₄, h₄, trivial, trivial⟩
  have hbetween : Run.final (step "keys.json" fun _ => "") firstWorld
      ((0, secondStart) :: [(0, .create), (0, .write count)]) = some w₃ := by
    simp [Run.final, h₁, h₂, h₃]
  exact ⟨w₄, (completed_rotation (by decide) (fun _ => rfl) served_firstWorld keySet_firstKeys
    hrun rfl hbetween h₄ served_firstWorld).1⟩

end VcCommonService.OidcKeys
