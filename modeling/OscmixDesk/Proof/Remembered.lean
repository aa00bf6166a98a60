/-
**The active profile is whole.**

Whatever number of writers run side by side, whichever of their calls fail, whenever one of them dies and whenever the
power is cut: a marker is absent, or as it was in the beginning, or names a profile that was recorded for its
configuration (`activeProfile_whole`). What a writer that ends reports of its change is so.
-/

import OscmixDesk.Model.Marker

namespace OscmixDesk.Marker

open Concurrent Switching

/-! ### Names -/

/-- A configuration whose name does not end as those of temporary files do. -/
def Usual (config : String) : Prop :=
  ¬ ".tmp".toList <:+ config.toList

/-- A name a marker has. -/
def IsMarker (path : String) : Prop :=
  ∃ config, Usual config ∧ path = activeProfilePath config

theorem activeProfilePath_toList (config : String) : (activeProfilePath config).toList
    = activeMarker.toList ++ if config = "routing.conf" then [] else '.' :: config.toList := by
  unfold activeProfilePath
  split
  · rw [List.append_nil]
  · simp [String.toList_append]

theorem activeProfilePath_injective {first second : String}
    (same : activeProfilePath first = activeProfilePath second) : first = second := by
  have lists := congrArg String.toList same
  rw [activeProfilePath_toList, activeProfilePath_toList] at lists
  have tails := List.append_cancel_left lists
  split at tails <;> split at tails
  · next one two => rw [one, two]
  · cases tails
  · cases tails
  · exact String.toList_inj.mp (List.cons.inj tails).2

/-- The temporary name of a marker is no marker. -/
theorem temporary_apart (config random : String) :
    ¬ IsMarker (activeProfilePath config ++ "." ++ random ++ ".tmp") := by
  rintro ⟨other, usual, same⟩
  have lists := congrArg String.toList same
  simp only [String.toList_append, activeProfilePath_toList, List.append_assoc] at lists
  have tails := List.append_cancel_left lists
  refine usual ?_
  split at tails
  · split at tails
    · simp at tails
    · exact ⟨random.toList, (List.cons.inj tails).2⟩
  · split at tails
    · cases tails
    · exact ⟨config.toList ++ ".".toList ++ random.toList, by simpa using (List.cons.inj tails).2⟩

theorem isAlphanumeric_solid {c : Char} (letter : isAlphanumeric c = true) : Text.isSpace c = false := by
  unfold isAlphanumeric at letter
  unfold Text.isSpace
  simp only [Bool.or_eq_true, Bool.and_eq_true, decide_eq_true_eq, Char.le_def, UInt32.le_iff_toNat_le] at letter
  have code : c.toNat = c.val.toNat := rfl
  rw [code]
  simp only [Bool.or_eq_false_iff, Bool.and_eq_false_iff, decide_eq_false_iff_not, beq_eq_false_iff_ne]
  simp only [show 'A'.val.toNat = 65 from rfl, show 'Z'.val.toNat = 90 from rfl, show 'a'.val.toNat = 97 from rfl,
    show 'z'.val.toNat = 122 from rfl, show '0'.val.toNat = 48 from rfl, show '9'.val.toNat = 57 from rfl] at letter
  omega

/-- The name of a profile has no blank. -/
theorem isProfileName_solid {name : List Char} (named : isProfileName name = true) :
    name ≠ [] ∧ ∀ c ∈ name, Text.isSpace c = false := by
  cases name with
  | nil => cases named
  | cons first rest =>
      obtain ⟨letter, others⟩ := (Bool.and_eq_true _ _).mp named
      refine ⟨List.cons_ne_nil _ _, fun c member => ?_⟩
      rcases List.mem_cons.mp member with rfl | member
      · exact isAlphanumeric_solid letter
      · have allowed := List.all_eq_true.mp others c member
        simp only [Bool.or_eq_true, decide_eq_true_eq] at allowed
        rcases allowed with ((letter | rfl) | rfl) | rfl
        · exact isAlphanumeric_solid letter
        all_goals rfl

theorem strip_newline {name : List Char} (named : isProfileName name = true) :
    Text.strip (name ++ ['\n']) = name := by
  obtain ⟨filled, solid⟩ := isProfileName_solid named
  unfold Text.strip
  obtain ⟨first, rest, rfl⟩ := List.exists_cons_of_ne_nil filled
  rw [List.cons_append, List.dropWhile_cons_of_neg (by simp [solid first List.mem_cons_self])]
  have last : Text.isSpace '\n' = true := rfl
  rw [← List.cons_append, List.reverse_append, List.reverse_singleton, List.singleton_append,
    List.dropWhile_cons_of_pos last]
  have whole : ∀ c ∈ (first :: rest).reverse, Text.isSpace c = false := fun c member =>
    solid c (List.mem_reverse.mp member)
  obtain ⟨final, before, reversed⟩ := List.exists_cons_of_ne_nil (List.reverse_ne_nil_iff.mpr filled)
  rw [reversed] at whole ⊢
  rw [List.dropWhile_cons_of_neg (by simp [whole final List.mem_cons_self]), ← reversed, List.reverse_reverse]

/-- What was recorded is read back. -/
theorem decode_encode {name : String} (named : isProfileName name.toList = true) :
    decode (encode name) = some name := by
  have bytes : String.fromUTF8? ⟨(encode name).toArray⟩ = some (name ++ "\n") := by
    unfold encode
    rw [Array.toArray_toList]
    have valid : ByteArray.IsValidUTF8 ⟨(name ++ "\n").toUTF8.data⟩ := (name ++ "\n").isValidUTF8
    exact (dif_pos valid).trans rfl
  have list : (name ++ "\n").toList = name.toList ++ ['\n'] := by simp [String.toList_append]
  unfold decode
  rw [bytes]
  show (if isProfileName (Text.strip (name ++ "\n").toList) then _ else _) = _
  rw [list, strip_newline named, if_pos named, String.ofList_toList]

/-! ### What the writers leave to each other -/

section Rules

variable {ι : Type} {i j : ι} {now after : Folder ι} {path : String} {file : ℕ}

/-- What was recorded for a marker, or was there in the beginning. -/
def Known (job : ι → Job) (first : String → List UInt8 → Prop) (path : String) (text : List UInt8) : Prop :=
  first path text ∨ ∃ i name config, job i = .remember name (some config) ∧ path = activeProfilePath config
    ∧ text = encode name

/-- Every file a marker may stand for, behind a power cut too, is whole: the disk has all of it, and it is known. -/
structure Valid (job : ι → Job) (first : String → List UInt8 → Prop) (now : Folder ι) : Prop where
  numbered : ∀ file i, now.maker file = some i → file < now.disk.fresh
  stood : ∀ path, IsMarker path → ∀ k ≤ now.disk.version path, ∀ file, now.disk.held path k = some file →
    file < now.disk.fresh
  whole : ∀ path, IsMarker path → ∀ file, now.disk.Lingers path file →
    now.disk.safe file = true ∧ Known job first path (now.disk.content file)

/-- A file of a process that never was a marker. -/
def Never (i : ι) (now : Folder ι) (path : String) : Prop :=
  ∀ k ≤ now.disk.version path, ∀ file, now.disk.held path k = some file → now.maker file ≠ some i

/-- What a process sees the others do: its files stay as they are and do not become markers, and what a name stood for
stays known. -/
structure Others (i : ι) (now after : Folder ι) : Prop where
  maker : ∀ file, after.maker file = some i ↔ now.maker file = some i
  content : ∀ file, now.maker file = some i → after.disk.content file = now.disk.content file
  safe : ∀ file, now.maker file = some i → after.disk.safe file = now.disk.safe file
  stands : ∀ file name, now.maker file = some i → ¬ IsMarker name → now.disk.entry name = some file →
    after.disk.entry name = some file
  version : ∀ path, now.disk.version path ≤ after.disk.version path
  synced : ∀ path, now.disk.synced path ≤ after.disk.synced path
  held : ∀ path k, k ≤ now.disk.version path → after.disk.held path k = now.disk.held path k
  apart : ∀ path, IsMarker path → Never i now path → Never i after path

theorem Others.refl (i : ι) (now : Folder ι) : Others i now now :=
  ⟨fun _ => Iff.rfl, fun _ _ => rfl, fun _ _ => rfl, fun _ _ _ _ stands => stands, fun _ => le_rfl, fun _ => le_rfl,
    fun _ _ _ => rfl, fun _ _ never => never⟩

theorem Others.trans {middle : Folder ι} (early : Others i now middle) (late : Others i middle after) :
    Others i now after where
  maker file := (late.maker file).trans (early.maker file)
  content file own := (late.content file ((early.maker file).mpr own)).trans (early.content file own)
  safe file own := (late.safe file ((early.maker file).mpr own)).trans (early.safe file own)
  stands file name own plain stands := late.stands file name ((early.maker file).mpr own) plain
    (early.stands file name own plain stands)
  version path := (early.version path).trans (late.version path)
  synced path := (early.synced path).trans (late.synced path)
  held path k old := (late.held path k (old.trans (early.version path))).trans (early.held path k old)
  apart path marker never := late.apart path marker (early.apart path marker never)

/-- The rules of the writers. -/
def rules (job : ι → Job) (first : String → List UInt8 → Prop) : Concurrent.Rules ι (Folder ι) where
  valid := Valid job first
  idle i now := ∀ file, now.maker file ≠ some i
  others := Others
  still passed idle file own := idle file ((passed.maker file).mp own)
  refl := Others.refl
  trans := Others.trans

/-- A process with a file of its own, under a name of its own, which never was a marker. -/
structure Owns (i : ι) (now : Folder ι) (temporary : String) (file : ℕ) : Prop where
  made : now.maker file = some i
  stands : now.disk.entry temporary = some file
  plain : ¬ IsMarker temporary
  never : ∀ path, IsMarker path → Never i now path

theorem Owns.mono {temporary : String} (owns : Owns i now temporary file) (passed : Others i now after) :
    Owns i after temporary file where
  made := (passed.maker file).mpr owns.made
  stands := passed.stands file temporary owns.made owns.plain owns.stands
  plain := owns.plain
  never path marker := passed.apart path marker (owns.never path marker)

/-! ### What the calls do -/

variable {job : ι → Job} {first : String → List UInt8 → Prop}

/-- A process may change what is in its file, as long as that is no marker. -/
theorem change_file {disk : Disk String UInt8} (valid : Valid job first now) (made : now.maker file = some i)
    (never : ∀ path, IsMarker path → Never i now path) (held : disk.held = now.disk.held)
    (version : disk.version = now.disk.version) (synced : disk.synced = now.disk.synced)
    (fresh : disk.fresh = now.disk.fresh)
    (others : ∀ other, other ≠ file →
      disk.content other = now.disk.content other ∧ disk.safe other = now.disk.safe other) :
    Valid job first ⟨disk, now.maker⟩ ∧ ∀ j, j ≠ i → Others j now ⟨disk, now.maker⟩ := by
  constructor
  · refine ⟨fun other j own => fresh ▸ valid.numbered other j own, fun path marker k high other stood => ?_,
      fun path marker other lingers => ?_⟩
    · rw [version] at high
      rw [held] at stood
      exact fresh ▸ valid.stood path marker k high other stood
    obtain ⟨k, low, high, stood⟩ := lingers
    rw [synced] at low
    rw [version] at high
    rw [held] at stood
    have apart : other ≠ file := by
      rintro rfl
      exact never path marker k high other stood made
    obtain ⟨content, safe⟩ := others other apart
    obtain ⟨whole, known⟩ := valid.whole path marker other ⟨k, low, high, stood⟩
    exact ⟨safe.trans whole, content ▸ known⟩
  · intro j other
    have apart : ∀ own, now.maker own = some j → own ≠ file := by
      rintro own mine rfl
      exact other (Option.some.inj (mine.symm.trans made))
    refine ⟨fun _ => Iff.rfl, fun own mine => (others own (apart own mine)).1,
      fun own mine => (others own (apart own mine)).2, fun own name _ _ stands => ?_, fun path => version ▸ le_rfl,
      fun path => synced ▸ le_rfl, fun path k _ => held ▸ rfl, fun path _ never k high own stood => ?_⟩
    · unfold Disk.entry at stands ⊢
      rw [held, version]
      exact stands
    · rw [version] at high
      rw [held] at stood
      exact never k high own stood

/-- A process may let a name stand for something else: a marker for a whole file of its own or for none, and any other
name that stands for no file of the others. -/
theorem change_name {name : String} {entry : Option ℕ} (valid : Valid job first now)
    (marks : IsMarker name → ∀ file, entry = some file → now.maker file = some i ∧ now.disk.safe file = true
      ∧ Known job first name (now.disk.content file))
    (own : ¬ IsMarker name → ∀ file, now.disk.entry name = some file → now.maker file = some i) :
    Valid job first ⟨now.disk.point name entry, now.maker⟩
      ∧ ∀ j, j ≠ i → Others j now ⟨now.disk.point name entry, now.maker⟩ := by
  constructor
  · refine ⟨valid.numbered, fun path marker k high file stood => ?_, fun path marker file lingers => ?_⟩
    · rcases Disk.point_cases high with old | ⟨rfl, rfl, new⟩
      · exact valid.stood path marker k old file ((Disk.point_held old).symm.trans stood)
      · exact valid.numbered file i (marks marker file (new.symm.trans stood)).1
    · rcases Disk.point_lingers lingers with before | ⟨rfl, same⟩
      · exact valid.whole path marker file before
      · exact (marks marker file same).2
  · intro j other
    refine ⟨fun _ => Iff.rfl, fun _ _ => rfl, fun _ _ => rfl, fun file held mine plain stands => ?_,
      fun path => Disk.point_version, fun path => le_rfl, fun path k old => Disk.point_held old,
      fun path marker never k high file stood => ?_⟩
    · have apart : held ≠ name := by
        rintro rfl
        exact other (Option.some.inj (mine.symm.trans (own plain file stands)))
      exact (Disk.point_entry_other apart).trans stands
    · rcases Disk.point_cases high with old | ⟨rfl, rfl, new⟩
      · exact never k old file ((Disk.point_held old).symm.trans stood)
      · intro mine
        have made := (marks marker file (new.symm.trans stood)).1
        exact other (Option.some.inj (mine.symm.trans made))

/-- A process may make a file under a name that is free and no marker. -/
theorem create_name [DecidableEq ι] {name : String} (valid : Valid job first now)
    (idle : ∀ file, now.maker file ≠ some i) (plain : ¬ IsMarker name) (absent : now.disk.entry name = none)
    (created : after = ⟨now.disk.create name, Function.update now.maker now.disk.fresh (some i)⟩) :
    (Valid job first after ∧ ∀ j, j ≠ i → Others j now after) ∧ Owns i after name now.disk.fresh
      ∧ after.disk.content now.disk.fresh = [] := by
  subst created
  have old : ∀ {file j}, now.maker file = some j → file ≠ now.disk.fresh := fun own =>
    Nat.ne_of_lt (valid.numbered _ _ own)
  have makers : ∀ {file j}, j ≠ i →
      (Function.update now.maker now.disk.fresh (some i) file = some j ↔ now.maker file = some j) := by
    intro file j other
    by_cases new : file = now.disk.fresh
    · subst new
      rw [Function.update_self]
      exact ⟨fun same => absurd (Option.some.inj same).symm other, fun own => absurd rfl (old own)⟩
    · rw [Function.update_of_ne new]
  -- only the new name stands for the new file
  have marked : ∀ {path k file}, IsMarker path → k ≤ (now.disk.create name).version path →
      (now.disk.create name).held path k = some file →
        k ≤ now.disk.version path ∧ now.disk.held path k = some file := by
    intro path k file marker high stood
    rcases @Disk.point_cases _ _ _ now.disk name path (some now.disk.fresh) k high with before | ⟨rfl, -, -⟩
    · exact ⟨before, (Disk.point_held before).symm.trans stood⟩
    · exact absurd marker plain
  refine ⟨⟨⟨fun file j own => ?_, fun path marker k high file stood => ?_, fun path marker file lingers => ?_⟩,
    fun j other => ?_⟩, ⟨?_, Disk.point_entry, plain, fun path marker k high file stood own => ?_⟩,
    Function.update_self ..⟩
  · show file < now.disk.fresh + 1
    by_cases new : file = now.disk.fresh
    · omega
    · have made : now.maker file = some j := (Function.update_of_ne new _ _).symm.trans own
      exact Nat.lt_succ_of_lt (valid.numbered file j made)
  · obtain ⟨before, stood⟩ := marked marker high stood
    exact Nat.lt_succ_of_lt (valid.stood path marker k before file stood)
  · obtain ⟨k, low, high, stood⟩ := lingers
    obtain ⟨before, stood⟩ := marked marker high stood
    obtain ⟨safe, known⟩ := valid.whole path marker file ⟨k, low, before, stood⟩
    have new : file ≠ now.disk.fresh := Nat.ne_of_lt (valid.stood path marker k before file stood)
    have same : (now.disk.create name).content file = now.disk.content file := Function.update_of_ne new _ _
    refine ⟨(Function.update_of_ne new _ _).trans safe, ?_⟩
    show Known job first path ((now.disk.create name).content file)
    rw [same]
    exact known
  · refine ⟨fun file => makers other, fun file own => Function.update_of_ne (old own) _ _,
      fun file own => Function.update_of_ne (old own) _ _, fun file held own _ stands => ?_,
      fun path => @Disk.point_version _ _ _ now.disk name path (some now.disk.fresh), fun path => le_rfl,
      fun path k before => Disk.point_held before, fun path marker never k high file stood mine => ?_⟩
    · have apart : held ≠ name := by
        rintro rfl
        rw [absent] at stands
        cases stands
      exact (Disk.point_entry_other apart).trans stands
    · obtain ⟨before, stood⟩ := marked marker high stood
      exact never k before file stood ((makers other).mp mine)
  · exact Function.update_self ..
  · obtain ⟨before, stood⟩ := marked marker high stood
    have new : file ≠ now.disk.fresh := Nat.ne_of_lt (valid.stood path marker k before file stood)
    exact idle file ((Function.update_of_ne new _ _).symm.trans own)

/-- A process may rename its file over a marker, once the disk has all of it. -/
theorem rename_marker {temporary : String} (valid : Valid job first now) (owns : Owns i now temporary file)
    (marker : IsMarker path) (safe : now.disk.safe file = true)
    (known : Known job first path (now.disk.content file)) :
    Valid job first ⟨now.disk.rename temporary path, now.maker⟩
      ∧ ∀ j, j ≠ i → Others j now ⟨now.disk.rename temporary path, now.maker⟩ := by
  obtain ⟨valid', gone⟩ := @change_name ι i now job first temporary none valid
    (fun marked => absurd marked owns.plain) fun _ other stands => by
      obtain rfl := Option.some.inj (owns.stands.symm.trans stands)
      exact owns.made
  have own : now.disk.entry temporary = some file := owns.stands
  obtain ⟨last, placed⟩ := @change_name ι i ⟨now.disk.unlink temporary, now.maker⟩ job first path (some file) valid'
    (fun _ other same => by
      obtain rfl := Option.some.inj same
      exact ⟨owns.made, safe, known⟩)
    fun plain => absurd marker plain
  unfold Disk.rename
  rw [own]
  exact ⟨last, fun j other => (gone j other).trans (placed j other)⟩

/-! ### What the writers do -/

/-- A script that is safe among the writers. -/
abbrev Safely [DecidableEq ι] (job : ι → Job) (first : String → List UInt8 → Prop) (i : ι) {α : Type}
    (post : α → Folder ι → Prop) (script : Script α) (now : Folder ι) : Prop :=
  Concurrent.Safe (rules job first) (Law i) i post script now

/-- What a process has in its file. -/
def Holding (i : ι) (temporary : String) (file : ℕ) (text : List UInt8) (now : Folder ι) : Prop :=
  Owns i now temporary file ∧ now.disk.content file = text

/-- What a process has built: the disk has all of it. -/
def Built (i : ι) (temporary : String) (file : ℕ) (text : List UInt8) (now : Folder ι) : Prop :=
  Holding i temporary file text now ∧ now.disk.safe file = true

theorem Holding.mono {temporary : String} {text : List UInt8} (holding : Holding i temporary file text now)
    (passed : Others i now after) : Holding i temporary file text after :=
  ⟨holding.1.mono passed, (passed.content file holding.1.made).trans holding.2⟩

theorem Built.mono {temporary : String} {text : List UInt8} (built : Built i temporary file text now)
    (passed : Others i now after) : Built i temporary file text after :=
  ⟨built.1.mono passed, (passed.safe file built.1.1.made).trans built.2⟩

/-- A version of a marker a process made: a file of its own with a text, or none. -/
structure Stood (i : ι) (path : String) (k : ℕ) (text : Option (List UInt8)) (now : Folder ι) : Prop where
  old : k ≤ now.disk.version path
  made : match text with
    | none => now.disk.held path k = none
    | some text => ∃ file, now.disk.held path k = some file ∧ now.maker file = some i ∧ now.disk.content file = text
        ∧ now.disk.safe file = true

theorem Stood.mono {k : ℕ} {text : Option (List UInt8)} (stood : Stood i path k text now)
    (passed : Others i now after) : Stood i path k text after := by
  obtain ⟨old, made⟩ := stood
  refine ⟨old.trans (passed.version path), ?_⟩
  cases text with
  | none => exact (passed.held path k old).trans made
  | some text =>
      obtain ⟨file, held, own, content, safe⟩ := made
      exact ⟨file, (passed.held path k old).trans held, (passed.maker file).mpr own,
        (passed.content file own).trans content, (passed.safe file own).trans safe⟩

/-- A report of a change is so: one in effect was made, one that is not was never seen, and a recorded profile that is
durable is on the disk for good. A marker that was already gone may come back, as another writer's removal may not
have been synced. -/
def Reports (i : ι) (path : String) (text : Option (List UInt8)) (now : Folder ι) : Except Unit Marked → Prop
  | .ok marked => (marked.inEffect = true → ∃ k, Stood i path k text now)
      ∧ (marked.inEffect = false → Never i now path)
      ∧ (marked.durable = true → text.isSome → ∃ k, k ≤ now.disk.synced path ∧ Stood i path k text now)
  | .error _ => ∃ k, Stood i path k text now

theorem Reports.mono {text : Option (List UInt8)} {result : Except Unit Marked}
    (reports : Reports i path text now result) (marker : IsMarker path) (passed : Others i now after) :
    Reports i path text after result := by
  cases result with
  | error stopped =>
      obtain ⟨k, stood⟩ := reports
      exact ⟨k, stood.mono passed⟩
  | ok marked =>
      obtain ⟨made, never, durable⟩ := reports
      refine ⟨fun effective => ?_, fun not => passed.apart path marker (never not), fun kept recorded => ?_⟩
      · obtain ⟨k, stood⟩ := made effective
        exact ⟨k, stood.mono passed⟩
      · obtain ⟨k, old, stood⟩ := durable kept recorded
        exact ⟨k, old.trans (passed.synced path), stood.mono passed⟩

/-- What the report says of a change whose names were brought to the disk, or were not. -/
theorem reports_synced {k : ℕ} {text : Option (List UInt8)} {result : Except Unit Bool}
    (stood : Stood i path k text now) (durable : result = .ok true → k ≤ now.disk.synced path) :
    Reports i path text now (result.map effective) := by
  cases result with
  | error stopped => exact ⟨k, stood⟩
  | ok synced =>
      refine ⟨fun _ => ⟨k, stood⟩, fun impossible => ?_, fun kept _ => ⟨k, durable ?_, stood⟩⟩
      · cases impossible
      · exact congrArg Except.ok kept

theorem reports_unmarked {text : Option (List UInt8)} (never : Never i now path) :
    Reports i path text now (.ok unmarked) := by
  refine ⟨fun impossible => ?_, fun _ => never, fun impossible => ?_⟩
  · cases impossible
  · cases impossible

theorem others_refl (i : ι) (now : Folder ι) : ∀ j, j ≠ i → Others j now now :=
  fun j _ => Others.refl j now

section Scripts

variable [DecidableEq ι]

theorem writeAll_safely {temporary : String} {text data : List UInt8} {before : List UInt8}
    (holding : Holding i temporary file before now) (whole : before ++ data = text) :
    Safely job first i (fun ok now => Owns i now temporary file ∧ (ok = true → Holding i temporary file text now))
      (writeAll file data) now := by
  induction length : data.length using Nat.strong_induction_on generalizing data before now with
  | _ n ih =>
      rw [writeAll]
      split
      · next empty =>
          subst empty
          rw [List.append_nil] at whole
          subst whole
          exact .done fun now _ passed => ⟨holding.1.mono passed, fun _ => holding.mono passed⟩
      · refine .ask fun now given after valid passed done => ?_
        obtain ⟨owns, content⟩ := holding.mono passed
        cases done with
        | noWrite =>
            refine ⟨⟨valid, others_refl i now⟩, .done fun now _ passed => ⟨owns.mono passed, fun impossible => ?_⟩⟩
            cases impossible
        | write count =>
            have changed := change_file valid owns.made owns.never
              (show (now.disk.write file (data.take count.1)).held = now.disk.held from rfl) rfl rfl rfl
              fun other apart => ⟨Function.update_of_ne apart _ _, Function.update_of_ne apart _ _⟩
            refine ⟨changed, ih (data.drop count.1).length ?_ ⟨⟨owns.made, owns.stands, owns.plain, owns.never⟩, rfl⟩
              ?_ rfl⟩
            · have := count.2
              rw [List.length_drop]
              omega
            · show Function.update now.disk.content file (now.disk.content file ++ data.take count.1) file
                ++ data.drop count.1 = text
              rw [Function.update_self, content, List.append_assoc, List.take_append_drop]
              exact whole

theorem build_safely {temporary : String} {text : List UInt8} (holding : Holding i temporary file [] now) :
    Safely job first i (fun ok now => Owns i now temporary file ∧ (ok = true → Built i temporary file text now))
      (build file text) now := by
  refine .ask fun now moded after valid passed done => ?_
  obtain ⟨rfl⟩ := done
  replace holding := holding.mono passed
  refine ⟨⟨valid, others_refl i now⟩, ?_⟩
  have written : Safely job first i
      (fun ok now => Owns i now temporary file ∧ (ok = true → Holding i temporary file text now))
      (onSuccess moded (writeAll file text)) now := by
    unfold onSuccess
    split
    · exact writeAll_safely holding rfl
    · refine .done fun now _ passed => ⟨holding.1.mono passed, fun impossible => ?_⟩
      cases impossible
  refine written.bind valid fun written now valid holds => ?_
  have synced : Safely job first i
      (fun ok now => Owns i now temporary file ∧ (ok = true → Built i temporary file text now))
      (onSuccess written (sys (.fsync file))) now := by
    unfold onSuccess
    split
    · next all =>
        have holding := holds.2 all
        refine .ask fun now given after valid passed done => ?_
        obtain ⟨owns, content⟩ := holding.mono passed
        cases done with
        | noFsync =>
            refine ⟨⟨valid, others_refl i now⟩, .done fun now _ passed => ⟨owns.mono passed, fun impossible => ?_⟩⟩
            cases impossible
        | fsync =>
            have changed := change_file valid owns.made owns.never
              (show (now.disk.sync file).held = now.disk.held from rfl) rfl rfl rfl
              fun other apart => ⟨rfl, Function.update_of_ne apart _ _⟩
            have built : Built i temporary file text ⟨now.disk.sync file, now.maker⟩ :=
              ⟨⟨⟨owns.made, owns.stands, owns.plain, owns.never⟩, content⟩, Function.update_self ..⟩
            exact ⟨changed, .done fun now _ passed => ⟨built.1.1.mono passed, fun _ => built.mono passed⟩⟩
    · refine .done fun now _ passed => ⟨holds.1.mono passed, fun impossible => ?_⟩
      cases impossible
  refine synced.bind valid fun synced now valid holds => .ask fun now closed after valid passed done => ?_
  obtain ⟨rfl⟩ := done
  refine ⟨⟨valid, others_refl i now⟩, .done fun now _ passed' => ?_⟩
  exact ⟨(holds.1.mono passed).mono passed', fun both =>
    ((holds.2 ((Bool.and_eq_true _ _).mp both).1).mono passed).mono passed'⟩

/-- A change of a marker that was made, and is durable where that is said. -/
theorem fsyncDirectory_safely {k : ℕ} {text : Option (List UInt8)} (stood : Stood i path k text now) :
    Safely job first i (fun result now => Stood i path k text now ∧ (result = .ok true → k ≤ now.disk.synced path))
      fsyncDirectory now := by
  refine .ask fun now opened after valid passed done => ?_
  obtain ⟨rfl⟩ := done
  replace stood := stood.mono passed
  refine ⟨⟨valid, others_refl i now⟩, ?_⟩
  cases opened with
  | false =>
      refine .done fun now _ passed => ⟨stood.mono passed, fun impossible => ?_⟩
      cases impossible
  | true =>
      refine .ask fun now synced after valid passed done => ?_
      replace stood := stood.mono passed
      have closing : ∀ {now : Folder ι}, Stood i path k text now → (synced = true → k ≤ now.disk.synced path) →
          Safely job first i
            (fun (result : Except Unit Bool) now => Stood i path k text now
              ∧ (result = .ok true → k ≤ now.disk.synced path))
            (do
              let closed ← sys .closeDirectory
              return if closed then .ok synced else .error ()) now := by
        intro now stood durable
        refine .ask fun now closed after valid passed done => ?_
        obtain ⟨rfl⟩ := done
        refine ⟨⟨valid, others_refl i now⟩, .done fun now' _ passed' =>
          ⟨(stood.mono passed).mono passed', fun same => ?_⟩⟩
        cases closed with
        | false => cases same
        | true =>
            have durable := durable (Except.ok.inj same)
            exact durable.trans ((passed.synced path).trans (passed'.synced path))
      cases done with
      | noSync => exact ⟨⟨valid, others_refl i now⟩, closing stood fun impossible => by cases impossible⟩
      | syncNames =>
          refine ⟨⟨⟨valid.numbered, valid.stood, fun path marker file lingers =>
            valid.whole path marker file (Disk.syncNames_lingers lingers)⟩, fun j _ => ?_⟩,
            closing ⟨stood.old, stood.made⟩ fun _ => stood.old⟩
          exact ⟨fun _ => Iff.rfl, fun _ _ => rfl, fun _ _ => rfl, fun _ _ _ _ stands => stands, fun _ => le_rfl,
            fun path => now.disk.ordered path, fun _ _ _ => rfl, fun _ _ never => never⟩

/-- What follows a change that was made. -/
theorem synced_safely {k : ℕ} {text : Option (List UInt8)} (marker : IsMarker path) (valid : Valid job first now)
    (stood : Stood i path k text now) :
    Safely job first i (fun result now => Reports i path text now result)
      (do return (← fsyncDirectory).map effective) now := by
  refine (fsyncDirectory_safely stood).bind valid fun result now _ holds => ?_
  exact .value (reports_synced holds.1 holds.2) fun now passed reports => reports.mono marker passed

theorem publish_safely {temporary : String} {text : List UInt8} {built : Bool} (marker : IsMarker path)
    (known : Known job first path text) (valid : Valid job first now) (owns : Owns i now temporary file)
    (whole : built = true → Built i temporary file text now) :
    Safely job first i (fun result now => Reports i path (some text) now result)
      (publish temporary path built) now := by
  have replaced : Safely job first i
      (fun ok now => (ok = true → ∃ k, Stood i path k (some text) now)
        ∧ (ok = false → Owns i now temporary file)) (onSuccess built (sys (.replace temporary path))) now := by
    unfold onSuccess
    split
    · next all =>
        refine .ask fun now given after valid passed done => ?_
        obtain ⟨⟨owns, content⟩, safe⟩ := (whole all).mono passed
        cases done with
        | noReplace =>
            refine ⟨⟨valid, others_refl i now⟩, .done fun now _ passed =>
              ⟨fun impossible => ?_, fun _ => owns.mono passed⟩⟩
            cases impossible
        | replace stands =>
            have own : now.disk.entry temporary = some file := owns.stands
            refine ⟨rename_marker valid owns marker safe (content ▸ known), .done fun later _ passed =>
              ⟨fun _ => ?_, fun impossible => ?_⟩⟩
            · have made : (now.disk.rename temporary path).entry path = some file := by
                unfold Disk.rename
                rw [Disk.point_entry, own]
              have stood : Stood i path _ (some text) ⟨now.disk.rename temporary path, now.maker⟩ :=
                ⟨le_rfl, file, made, owns.made, content, safe⟩
              exact ⟨_, stood.mono passed⟩
            · cases impossible
    · refine .done fun now _ passed => ⟨fun impossible => ?_, fun _ => owns.mono passed⟩
      cases impossible
  refine replaced.bind valid fun ok now valid holds => ?_
  cases ok with
  | true =>
      obtain ⟨k, stood⟩ := holds.1 rfl
      exact synced_safely marker valid stood
  | false =>
      refine .ask fun now given after valid passed done => ?_
      obtain ⟨made, stands, plain, never⟩ := (holds.2 rfl).mono passed
      have ending : ∀ {now : Folder ι}, Never i now path →
          Safely job first i (fun result now => Reports i path (some text) now result) (.done (.ok unmarked)) now :=
        fun never => .value (reports_unmarked never) fun now passed reports => reports.mono marker passed
      cases done with
      | noUnlink => exact ⟨⟨valid, others_refl i now⟩, ending (never path marker)⟩
      | missing absent => exact ⟨⟨valid, others_refl i now⟩, ending (never path marker)⟩
      | unlink named stood =>
          obtain ⟨after, gone⟩ := @change_name ι i now job first temporary none valid
            (fun marked => absurd marked plain) fun _ other same => by
              obtain rfl := Option.some.inj (stands.symm.trans same)
              exact made
          refine ⟨⟨after, gone⟩, ending ?_⟩
          intro k high file stood
          rcases Disk.point_cases high with old | ⟨rfl, -, -⟩
          · exact never path marker k old file ((Disk.point_held old).symm.trans stood)
          · exact absurd marker plain

theorem rememberActiveProfile_safely {name config : String} (usual : Usual config)
    (known : Known job first (activeProfilePath config) (encode name)) (idle : ∀ file, now.maker file ≠ some i) :
    Safely job first i (fun result now => Reports i (activeProfilePath config) (some (encode name)) now result)
      (rememberActiveProfile name (some config)) now := by
  have marker : IsMarker (activeProfilePath config) := ⟨config, usual, rfl⟩
  refine .ask fun now given after valid passed done => ?_
  have idle : ∀ file, now.maker file ≠ some i := fun file own => idle file ((passed.maker file).mp own)
  have never : Never i now (activeProfilePath config) := fun _ _ file _ => idle file
  cases done with
  | noTemporary =>
      refine ⟨⟨valid, others_refl i now⟩, .ask fun now' given after valid passed done => ?_⟩
      have never := passed.apart _ marker never
      cases done with
      | noUnlink =>
          exact ⟨⟨valid, others_refl i now'⟩,
            .value (reports_unmarked never) fun now passed reports => reports.mono marker passed⟩
      | missing absent =>
          exact ⟨⟨valid, others_refl i now'⟩,
            .value (reports_unmarked never) fun now passed reports => reports.mono marker passed⟩
      | unlink named stands => exact absurd rfl named
  | temporary random absent =>
      obtain ⟨kept, owns, empty⟩ := create_name valid idle (temporary_apart config random) absent rfl
      refine ⟨kept, (build_safely ⟨owns, empty⟩).bind kept.1 fun built now valid holds => ?_⟩
      exact publish_safely marker known valid holds.1 holds.2

theorem activeProfilePath_named (config : String) : activeProfilePath config ≠ "" := by
  intro empty
  have list := congrArg String.toList empty
  rw [activeProfilePath_toList] at list
  have filled : activeMarker.toList ≠ [] := by decide
  exact filled (List.append_eq_nil_iff.mp list).1

theorem forgetActiveProfile_safely {config : String} (usual : Usual config) (idle : ∀ file, now.maker file ≠ some i) :
    Safely job first i (fun result now => Reports i (activeProfilePath config) none now result)
      (forgetActiveProfile (some config)) now := by
  have marker : IsMarker (activeProfilePath config) := ⟨config, usual, rfl⟩
  refine .ask fun now given after valid passed done => ?_
  have never : Never i now (activeProfilePath config) := fun _ _ file _ own => idle file ((passed.maker file).mp own)
  have entry : ∀ {disk : Disk String UInt8} {maker : ℕ → Option ι}, disk.entry (activeProfilePath config) = none →
      Stood i (activeProfilePath config) (disk.version (activeProfilePath config)) none ⟨disk, maker⟩ :=
    fun gone => ⟨le_rfl, gone⟩
  cases done with
  | noUnlink =>
      exact ⟨⟨valid, others_refl i now⟩,
        .value (reports_unmarked never) fun now passed reports => reports.mono marker passed⟩
  | missing absent =>
      have gone := absent.resolve_left (activeProfilePath_named config)
      refine ⟨⟨valid, others_refl i now⟩, .value
        ⟨fun _ => ⟨_, entry gone⟩, fun impossible => ?_, fun _ impossible => ?_⟩
        fun now passed reports => Reports.mono reports marker passed⟩
      · cases impossible
      · cases impossible
  | unlink named stands =>
      obtain ⟨after, gone⟩ := @change_name ι i now job first (activeProfilePath config) none valid
        (fun _ _ impossible => by cases impossible) fun plain => absurd marker plain
      exact ⟨⟨after, gone⟩, synced_safely marker after (entry Disk.point_entry)⟩

/-- What a job leaves in the marker. -/
def Job.text : Job → Option (List UInt8)
  | remember name _ => some (encode name)
  | forget _ => none

/-- What a writer that ends reports of its change is so. -/
def Truthful (job : Job) (i : ι) (result : Except Unit Marked) (now : Folder ι) : Prop :=
  ∀ config, job.config = some config → Reports i (activeProfilePath config) job.text now result

theorem writers_sound (usual : ∀ i config, (job i).config = some config → Usual config) :
    Sound (rules job first) (writers job) (fun i => Truthful (job i) i) where
  starts i now valid idle := by
    show Safely job first i _ (job i).script now
    cases own : job i with
    | remember name config =>
        cases config with
        | none => exact .done fun _ _ _ _ impossible => by cases impossible
        | some config =>
            have known : Known job first (activeProfilePath config) (encode name) :=
              Or.inr ⟨i, name, config, own, rfl, rfl⟩
            refine (rememberActiveProfile_safely (usual i config (by rw [own]; rfl)) known idle).imp ?_
            intro result now _ reports other same
            obtain rfl := Option.some.inj same
            exact reports
    | forget config =>
        cases config with
        | none => exact .done fun _ _ _ _ impossible => by cases impossible
        | some config =>
            refine (forgetActiveProfile_safely (usual i config (by rw [own]; rfl)) idle).imp ?_
            intro result now _ reports other same
            obtain rfl := Option.some.inj same
            exact reports
  dies i now after valid same := by
    obtain rfl : after = now := same
    exact ⟨valid, others_refl i after⟩
  stops now after valid cut := by
    obtain ⟨cut, makers⟩ := cut
    refine ⟨⟨fun file i own => ?_, fun path marker k high file stood => ?_, fun path marker file lingers => ?_⟩,
      fun i idle file own => idle file (makers ▸ own)⟩
    · rw [cut.fresh]
      exact valid.numbered file i (makers ▸ own)
    · rw [cut.fresh]
      exact valid.stood path marker k (high.trans (cut.since path).2) file ((cut.held path k high).symm.trans stood)
    · obtain ⟨safe, known⟩ := valid.whole path marker file (cut.lingers lingers)
      obtain ⟨content, still⟩ := cut.whole file safe
      exact ⟨still, content ▸ known⟩

end Scripts

/-! ### Every run -/

/-- A directory nobody has written to yet; the disk has all of its markers. -/
structure Settled (start : Folder ι) : Prop where
  unmade : ∀ file, start.maker file = none
  stood : ∀ path, IsMarker path → ∀ k ≤ start.disk.version path, ∀ file, start.disk.held path k = some file →
    file < start.disk.fresh
  whole : ∀ path, IsMarker path → ∀ file, start.disk.Lingers path file → start.disk.safe file = true

/-- What a marker held in the beginning. -/
def Before (start : Folder ι) (path : String) (text : List UInt8) : Prop :=
  ∃ file, start.disk.Lingers path file ∧ start.disk.content file = text

theorem Settled.valid {start : Folder ι} (settled : Settled start) : Valid job (Before start) start where
  numbered file i own := by
    rw [settled.unmade] at own
    cases own
  stood := settled.stood
  whole path marker file lingers := ⟨settled.whole path marker file lingers, Or.inl ⟨file, lingers, rfl⟩⟩

/-- What a marker names that stands for a known file. -/
theorem known_named {first : String → List UInt8 → Prop} {config : String} {text : List UInt8}
    (named : ∀ i name config, job i = .remember name config → isProfileName name.toList = true)
    (known : Known job first (activeProfilePath config) text) : first (activeProfilePath config) text
      ∨ ∃ i name, job i = .remember name (some config) ∧ decode text = some name := by
  rcases known with before | ⟨i, name, other, own, path, rfl⟩
  · exact Or.inl before
  · obtain rfl := activeProfilePath_injective path
    exact Or.inr ⟨i, name, own, decode_encode (named i name _ own)⟩

/-- **The active profile is whole.** However the writers of a directory interleave, whichever of their calls fail,
whichever of them die and whenever the power is cut, now and behind another power cut: a marker is absent, or as it
was in the beginning, or names a profile that was recorded for its configuration. A writer that ends reports what it
did, and a profile it reports as durable outlives every power cut. -/
theorem activeProfile_whole [DecidableEq ι] {start : Folder ι}
    {now : State ι Request Answer (Except Unit Marked) (Folder ι)}
    (usual : ∀ i config, (job i).config = some config → Usual config)
    (named : ∀ i name config, job i = .remember name config → isProfileName name.toList = true)
    (settled : Settled start) (reached : (writers job).Reached start now) :
    (∀ config, Usual config → ∀ disk, disk = now.world.disk ∨ Disk.Cut now.world.disk disk →
      disk.entry (activeProfilePath config) = none
        ∨ (∃ file, disk.entry (activeProfilePath config) = some file
          ∧ Before start (activeProfilePath config) (disk.content file))
        ∨ ∃ i name, job i = .remember name (some config) ∧ activeProfile disk (some config) = some name)
    ∧ ∀ i result, now.runs i = .running (.done result) → Truthful (job i) i result now.world
      ∧ ∀ name config disk, job i = .remember name (some config) → result.toOption.any (·.durable) = true →
        Disk.Cut now.world.disk disk →
          ∃ k, Stood i (activeProfilePath config) k (some (encode name)) ⟨disk, now.world.maker⟩ := by
  have good := (writers_sound usual).reached (settled.valid)
    (fun i file own => by rw [settled.unmade] at own; cases own) reached
  constructor
  · intro config plain disk either
    have marker : IsMarker (activeProfilePath config) := ⟨config, plain, rfl⟩
    cases entry : disk.entry (activeProfilePath config) with
    | none => exact Or.inl rfl
    | some file =>
        have known : Known job (Before start) (activeProfilePath config) (disk.content file) := by
          rcases either with rfl | cut
          · exact (good.valid.whole _ marker file (Disk.lingers_entry entry)).2
          · obtain ⟨safe, known⟩ := good.valid.whole _ marker file (cut.lingers (Disk.lingers_entry entry))
            exact (cut.whole file safe).1 ▸ known
        rcases known_named named known with before | ⟨i, name, own, decoded⟩
        · exact Or.inr (Or.inl ⟨file, rfl, before⟩)
        · refine Or.inr (Or.inr ⟨i, name, own, ?_⟩)
          unfold activeProfile
          simp only [Option.bind_eq_bind, Option.bind_some, entry]
          exact decoded
  · intro i result ended
    have truthful : Truthful (job i) i result now.world := good.ends ended
    refine ⟨truthful, fun name config disk own durable cut => ?_⟩
    obtain ⟨marked, returned, kept⟩ := (Option.any_eq_true _ _).mp durable
    cases result with
    | error stopped => cases returned
    | ok own' =>
        obtain rfl := Option.some.inj returned
        have reports := truthful config (by rw [own]; rfl)
        rw [own] at reports
        obtain ⟨k, old, stood⟩ := reports.2.2 kept rfl
        obtain ⟨file, held, made, content, safe⟩ := stood.made
        have still : k ≤ disk.version (activeProfilePath config) := old.trans (cut.since _).1
        obtain ⟨same, kept⟩ := cut.whole file safe
        exact ⟨k, still, file, (cut.held _ k still).trans held, made, same.trans content, kept⟩

/-- A directory with the marker of one profile. -/
def oldMarker : Folder Unit where
  disk :=
    { held := fun name _ => if name = "active-profile" then some 0 else none
      version := fun _ => 0
      synced := fun _ => 0
      content := fun _ => encode "live"
      safe := fun _ => true
      fresh := 1
      ordered := fun _ => le_rfl }
  maker _ := none

theorem oldMarker_settled : Settled oldMarker where
  unmade _ := rfl
  stood path _ k _ file held := by
    have held : (if path = "active-profile" then some 0 else none) = some file := held
    split at held
    · obtain rfl := Option.some.inj held
      exact Nat.one_pos
    · cases held
  whole _ _ _ _ := rfl

/-- One writer of a new profile. -/
def trackingJob : Unit → Job := fun _ => .remember "tracking" (some "routing.conf")

/-- The power is cut while a new marker is being built beside it: the old one is whole. -/
theorem oldMarker_whole : ∃ now, (writers trackingJob).Reached oldMarker now
    ∧ now.world.disk.entry "active-profile.x.tmp" = some 1
    ∧ (now.world.disk.entry "active-profile" = none
      ∨ (∃ file, now.world.disk.entry "active-profile" = some file
        ∧ Before oldMarker "active-profile" (now.world.disk.content file))
      ∨ ∃ i name, trackingJob i = .remember name (some "routing.conf")
        ∧ activeProfile now.world.disk (some "routing.conf") = some name) := by
  let made : Folder Unit :=
    ⟨oldMarker.disk.create "active-profile.x.tmp", Function.update oldMarker.maker 1 (some ())⟩
  let cut : Folder Unit := ⟨made.disk.syncNames, made.maker⟩
  have started : (writers trackingJob).Reached oldMarker _ := Relation.ReflTransGen.refl.tail (.start () rfl)
  have built : (writers trackingJob).Reached oldMarker ⟨made, _⟩ :=
    started.tail (.call () _ _ _ (Function.update_self ..) (.temporary "x" rfl))
  have lost : Disk.Cut made.disk cut.disk :=
    ⟨fun name => ⟨made.disk.ordered name, le_rfl⟩, rfl, fun _ _ _ => rfl, fun _ safe => ⟨rfl, safe⟩, rfl⟩
  have reached : (writers trackingJob).Reached oldMarker ⟨cut, _⟩ := built.tail (.stop ⟨lost, rfl⟩)
  have usual : Usual "routing.conf" := by
    unfold Usual
    decide
  have temporary : cut.disk.entry "active-profile.x.tmp" = some 1 :=
    @Disk.point_entry _ _ _ oldMarker.disk "active-profile.x.tmp" (some 1)
  refine ⟨_, reached, temporary, ?_⟩
  refine (activeProfile_whole (fun _ config same => ?_) (fun _ name config same => ?_) oldMarker_settled reached).1
    "routing.conf" usual cut.disk (Or.inl rfl)
  · obtain rfl := Option.some.inj same
    exact usual
  · injection same with name
    rw [← name]
    decide

end Rules

end OscmixDesk.Marker
