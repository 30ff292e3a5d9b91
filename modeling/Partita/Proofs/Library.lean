import Mathlib.Data.List.Induction
import Mathlib.Data.List.Nodup
import Partita.Proofs.Performance.Exact
import Partita.Proofs.Studio.Faults
import Partita.Proofs.Wave.Encoding

/-! Samples are loaded once. Of the files of a name the first one counts that can be decoded: one
that cannot be decoded leaves the name to those after it, and one that can takes it from them. A
name that is taken beforehand is left as it is, so that a studio that loads a folder only gains
samples, and gains nothing when it loads the folder again. -/
namespace Partita

open Files

variable {α : Type}

namespace Library

/-- What decoding a file may come to: its audio, or that it is no audio file. -/
inductive Decoding : Except Fault (Audio α) → Prop
  | audio (audio : Audio α) : Decoding (.ok audio)
  | unreadable (file : String) : Decoding (.error (.sampleUnreadable file))

def IsFirst (files : List (Path × Except Fault (Audio α))) (name : String) (audio : Audio α) : Prop :=
  ∃ before path after, files = before ++ (path, .ok audio) :: after ∧ sampleName path = name ∧
    ∀ earlier ∈ before, sampleName earlier.1 = name → ∀ other, earlier.2 ≠ .ok other

/-- The samples of some files whose names were free: each name once, with its first audio. -/
structure Firsts (existing : List String) (files : List (Path × Except Fault (Audio α)))
    (loaded : List (String × Audio α)) : Prop where
  distinct : (loaded.map Prod.fst).Nodup
  first : ∀ name audio, (name, audio) ∈ loaded ↔ name ∉ existing ∧ IsFirst files name audio

section first

variable {existing : List String} {files more : List (Path × Except Fault (Audio α))} {path : Path}
  {outcome : Except Fault (Audio α)} {name : String} {audio : Audio α} {loaded : List (String × Audio α)}

theorem IsFirst.append (first : IsFirst files name audio) (more : List (Path × Except Fault (Audio α))) :
    IsFirst (files ++ more) name audio := by
  obtain ⟨before, path, after, rfl, named, none⟩ := first
  exact ⟨before, path, after ++ more, by simp, named, none⟩

/-- One file more is the first of its name if it can be decoded and none before it could. -/
theorem isFirst_snoc : IsFirst (files ++ [(path, outcome)]) name audio ↔ IsFirst files name audio ∨
    sampleName path = name ∧ outcome = .ok audio ∧
      ∀ earlier ∈ files, sampleName earlier.1 = name → ∀ other, earlier.2 ≠ .ok other := by
  constructor
  · rintro ⟨before, here, after, shape, named, none⟩
    rcases List.eq_nil_or_concat after with rfl | ⟨rest, last, rfl⟩
    · obtain ⟨rfl, same⟩ := List.append_inj' shape rfl
      obtain ⟨rfl, rfl⟩ := Prod.mk.inj (List.cons.inj same).1
      exact .inr ⟨named, rfl, none⟩
    · rw [List.concat_eq_append, ← List.cons_append, ← List.append_assoc] at shape
      obtain ⟨rfl, -⟩ := List.append_inj' shape rfl
      exact .inl ⟨before, here, rest, rfl, named, none⟩
  · rintro (first | ⟨named, rfl, none⟩)
    · exact first.append _
    · exact ⟨files, path, [], rfl, named, none⟩

/-- A name has a first file as soon as one file of the name can be decoded. -/
theorem exists_isFirst_iff :
    (∃ audio, IsFirst files name audio) ↔ ∃ path audio, (path, .ok audio) ∈ files ∧ sampleName path = name := by
  constructor
  · rintro ⟨audio, before, path, after, rfl, named, -⟩
    exact ⟨path, audio, by simp, named⟩
  · rintro ⟨path, audio, listed, rfl⟩
    induction files using List.reverseRecOn generalizing path audio with
    | nil => contradiction
    | append_singleton files last ih =>
      by_cases earlier : ∃ before ∈ files, sampleName before.1 = sampleName path ∧ ∃ other, before.2 = .ok other
      · obtain ⟨⟨before, _⟩, member, named, other, rfl⟩ := earlier
        rw [← show sampleName before = sampleName path from named]
        obtain ⟨audio, first⟩ := ih before other member
        exact ⟨audio, first.append _⟩
      · have none : ∀ before ∈ files, sampleName before.1 = sampleName path → ∀ other, before.2 ≠ .ok other :=
          fun before member named other decoded => earlier ⟨before, member, named, other, decoded⟩
        have unlisted : (path, .ok audio) ∉ files := fun member => none _ member rfl audio rfl
        obtain rfl : (path, .ok audio) = last := by simpa [unlisted] using listed
        exact ⟨audio, isFirst_snoc.mpr (.inr ⟨rfl, rfl, none⟩)⟩

theorem Firsts.mem_names (firsts : Firsts existing files loaded) : name ∈ loaded.map Prod.fst ↔
    name ∉ existing ∧ ∃ path audio, (path, .ok audio) ∈ files ∧ sampleName path = name := by
  rw [← exists_isFirst_iff]
  simp only [List.mem_map, Prod.exists, exists_and_right, exists_eq_right, firsts.first, exists_and_left]

theorem Firsts.nil (existing : List String) : Firsts existing [] ([] : List (String × Audio α)) := by
  refine ⟨List.nodup_nil, fun name audio => ⟨fun listed => absurd listed List.not_mem_nil, ?_⟩⟩
  rintro ⟨-, before, path, after, shape, -⟩
  simp at shape

/-- A file more that is passed over. Either its name is taken, or it cannot be decoded. -/
theorem Firsts.skip (firsts : Firsts existing files loaded)
    (passed : sampleName path ∈ existing ∨ sampleName path ∈ loaded.map Prod.fst ∨ ∀ audio, outcome ≠ .ok audio) :
    Firsts existing (files ++ [(path, outcome)]) loaded := by
  refine ⟨firsts.distinct, fun name audio => ?_⟩
  rw [firsts.first, isFirst_snoc]
  refine ⟨fun ⟨free, first⟩ => ⟨free, .inl first⟩, ?_⟩
  rintro ⟨free, first | ⟨rfl, rfl, none⟩⟩
  · exact ⟨free, first⟩
  · rcases passed with taken | taken | undecoded
    · exact absurd taken free
    · obtain ⟨-, before, other, listed, named⟩ := firsts.mem_names.mp taken
      exact absurd rfl (none _ listed named other)
    · exact absurd rfl (undecoded audio)

/-- A file more whose name is free and that can be decoded. -/
theorem Firsts.snoc (firsts : Firsts existing files loaded) (free : sampleName path ∉ existing)
    (unloaded : sampleName path ∉ loaded.map Prod.fst) (audio : Audio α) :
    Firsts existing (files ++ [(path, .ok audio)]) (loaded ++ [(sampleName path, audio)]) := by
  have none : ∀ earlier ∈ files, sampleName earlier.1 = sampleName path → ∀ other, earlier.2 ≠ .ok other := by
    rintro ⟨earlier, _⟩ member named other rfl
    exact unloaded (firsts.mem_names.mpr ⟨free, earlier, other, member, named⟩)
  refine ⟨?_, fun name other => ?_⟩
  · rw [List.map_append, List.map_singleton, ← List.concat_eq_append]
    exact firsts.distinct.concat unloaded
  · rw [List.mem_append, List.mem_singleton, firsts.first, isFirst_snoc]
    constructor
    · rintro (⟨free, first⟩ | same)
      · exact ⟨free, .inl first⟩
      · obtain ⟨rfl, rfl⟩ := Prod.mk.inj same
        exact ⟨free, .inr ⟨rfl, rfl, none⟩⟩
    · rintro ⟨free, first | ⟨rfl, same, -⟩⟩
      · exact .inl ⟨free, first⟩
      · exact .inr (by rw [Except.ok.inj same])

/-- Where every name is taken nothing is loaded. -/
theorem Firsts.eq_nil (firsts : Firsts existing files loaded)
    (taken : ∀ path audio, (path, .ok audio) ∈ files → sampleName path ∈ existing) : loaded = [] := by
  rw [List.eq_nil_iff_forall_not_mem]
  rintro ⟨name, audio⟩ listed
  obtain ⟨free, path, audio, member, rfl⟩ := firsts.mem_names.mp (List.mem_map_of_mem listed)
  exact free (taken path audio member)

end first

section load

variable {existing : List String} {done rest files : List (Path × Except Fault (Audio α))}
  {outcome : Except Fault (Audio α)} {l : Loading α}

theorem mem_names_iff {loaded : List (String × Audio α)} {name : String} :
    (loaded.lookup name).isSome = true ↔ name ∈ loaded.map Prod.fst := by
  rw [List.lookup_isSome_iff, List.mem_map]
  exact exists_congr fun entry => and_congr_right fun _ => beq_iff_eq.trans eq_comm

/-- A step: one file more is loaded or passed over, and what is loaded are again the first files
of their names. -/
theorem runFrom_add (firsts : Firsts existing done l.loaded) (decoding : Decoding outcome) (path : Path) (total : ℕ) :
    ∃ t, runFrom (add existing total path outcome) l = (.ok (), t) ∧
      Firsts existing (done ++ [(path, outcome)]) t.loaded := by
  unfold add
  rw [runFrom_get_bind]
  dsimp only
  split
  · rename_i taken
    rw [Bool.or_eq_true, List.contains_iff_mem, mem_names_iff] at taken
    exact ⟨_, rfl, firsts.skip (taken.imp_right .inl)⟩
  · rename_i free
    rw [Bool.or_eq_true, List.contains_iff_mem, mem_names_iff, not_or] at free
    cases decoding with
    | audio audio => exact ⟨_, rfl, firsts.snoc free.1 free.2 audio⟩
    | unreadable file => exact ⟨_, rfl, firsts.skip (.inr (.inr fun audio => by simp))⟩

/-- A run over all files. -/
theorem runFrom_files (firsts : Firsts existing done l.loaded) (readable : ∀ f ∈ rest, Decoding f.2) (total : ℕ) :
    ∃ t, runFrom (forIn rest PUnit.unit fun f _ => do
      add existing total f.1 f.2
      pure (ForInStep.yield PUnit.unit)) l = (.ok ⟨⟩, t) ∧ Firsts existing (done ++ rest) t.loaded := by
  induction rest generalizing done l with
  | nil =>
    rw [List.append_nil]
    exact ⟨l, rfl, firsts⟩
  | cons f rest ih =>
    obtain ⟨here, later⟩ := List.forall_mem_cons.mp readable
    obtain ⟨t, ran, kept⟩ := runFrom_add firsts here f.1 total
    obtain ⟨u, ended, all⟩ := ih kept later
    refine ⟨u, ?_, by simpa using all⟩
    rw [List.forIn_cons, bind_assoc, runFrom_bind_ok ran, pure_bind]
    exact ended

/-- Files of which each can be decoded or cannot are loaded to the end. -/
theorem runFrom_load (readable : ∀ f ∈ files, Decoding f.2) (existing : List String) :
    ∃ l, runFrom (load existing files) {} = (.ok (), l) ∧ Firsts existing files l.loaded := by
  let found : Record := ⟨.info, "samples", s!"Found {files.length} samples to preload"⟩
  obtain ⟨l, ran, firsts⟩ := runFrom_files (l := { log := #[found] }) (.nil existing) readable files.length
  refine ⟨l, ?_, firsts⟩
  have noted : runFrom (note (α := α) .info found.text) {} = (.ok (), { log := #[found] }) := rfl
  unfold load
  rw [runFrom_bind_ok noted]
  exact runFrom_bind_ok ran

end load

section decode

variable [Scalar α]

/-- Audio is converted from any rate to any other one. -/
theorem resample_ok (a : Audio α) {source target : ℤ} (given : 1 ≤ source) (asked : 1 ≤ target) :
    ∃ audio, Signal.resample a source target = .ok audio := by
  have whole {n : ℤ} (positive : 1 ≤ n) (divides : (Int.gcd source target : ℤ) ∣ n) :
      ¬ n / (Int.gcd source target : ℤ) < 1 := by
    have : 0 < n / (Int.gcd source target : ℤ) := Int.ediv_pos_of_pos_of_dvd (by omega) (by omega) divides
    omega
  unfold Signal.resample
  split
  · exact ⟨a, rfl⟩
  · simp only [whole asked (Int.gcd_dvd_right _ _), whole given (Int.gcd_dvd_left _ _), decide_false, Bool.or_self,
      Bool.false_eq_true, if_false]
    exact ⟨_, rfl⟩

variable [Wave.Interchange α]

/-- A wave file that can be decoded tells a rate. -/
theorem rate_pos_of_decode? {bytes : List UInt8} {b : Buffer α} (decoded : Wave.decode? bytes = some b) :
    1 ≤ b.rate := by
  unfold Wave.decode? at decoded
  split at decoded
  · obtain ⟨⟨layout, payload⟩, -, rest⟩ := Option.bind_eq_some_iff.mp decoded
    dsimp only at rest
    split at rest
    · contradiction
    · rename_i readable
      obtain rfl := Option.some.inj rest
      simp only [Bool.not_eq_true', Bool.not_eq_false, Wave.Layout.readable, Bool.and_eq_true,
        decide_eq_true_eq] at readable
      exact Int.ofNat_le.mpr readable.1.2
  · contradiction

/-- No file does worse than not being decoded. -/
theorem decoding_decode (path : String) (bytes : Option ByteArray) {rate : ℤ} (sampled : 1 ≤ rate) :
    Decoding (decode (α := α) path bytes rate) := by
  unfold decode
  split
  · exact .unreadable path
  · rename_i b found
    obtain ⟨content, -, decoded⟩ := Option.bind_eq_some_iff.mp found
    obtain ⟨audio, converted⟩ := resample_ok (.ofColumns b.frames (b.audio.columns.extract 0 2))
      (rate_pos_of_decode? decoded) sampled
    rw [converted]
    exact .audio audio

/-- The sample files below a folder, each with what decoding it at a rate comes to. -/
def offered (t : Tree) (folder : Path) (rate : ℤ) : List (Path × Except Fault (Audio α)) :=
  (sampleFiles t folder).map fun p => (p, decode p.text (t.file? p) rate)

theorem decoding_offered (t : Tree) (folder : Path) {rate : ℤ} (sampled : 1 ≤ rate) :
    ∀ f ∈ offered (α := α) t folder rate, Decoding f.2 := by
  intro f listed
  obtain ⟨p, -, rfl⟩ := List.mem_map.mp listed
  exact decoding_decode p.text (t.file? p) sampled

end decode

end Library

theorem assign_new {β : Type} {key : String} {entries : List (String × β)} (new : key ∉ entries.map Prod.fst)
    (value : β) : assign key value entries = entries ++ [(key, value)] := by
  induction entries with
  | nil => rfl
  | cons entry rest ih =>
    rw [List.map_cons, List.mem_cons, not_or] at new
    have other : (entry.1 == key) = false := beq_eq_false_iff_ne.mpr (Ne.symm new.1)
    rw [assign, other, ih new.2]
    rfl

/-- New names are added behind the others, in their order. -/
theorem foldl_assign {β : Type} {entries added : List (String × β)} (distinct : (added.map Prod.fst).Nodup)
    (new : ∀ name ∈ added.map Prod.fst, name ∉ entries.map Prod.fst) :
    added.foldl (fun all (name, value) => assign name value all) entries = entries ++ added := by
  induction added generalizing entries with
  | nil => simp
  | cons entry rest ih =>
    obtain ⟨key, value⟩ := entry
    rw [List.map_cons, List.nodup_cons] at distinct
    obtain ⟨here, later⟩ := List.forall_mem_cons.mp new
    have step : assign key value entries = entries ++ [(key, value)] := assign_new here value
    rw [List.foldl_cons]
    dsimp only
    rw [step, ih distinct.2, List.append_assoc, List.singleton_append]
    intro name member
    rw [List.map_append, List.mem_append, not_or]
    refine ⟨later name member, fun same => distinct.1 ?_⟩
    obtain rfl : name = key := by simpa using same
    exact member

namespace Studio

open Library

variable {s : Studio α} {folder : String} {files : List (Path × Except Fault (Audio α))}

/-- The files that a folder holds for a studio, with what decoding them comes to. -/
def Offers (s : Studio α) (folder : String) (files : List (Path × Except Fault (Audio α))) : Prop :=
  ∀ existing, s.tools.loadFolder s.files (.ofString folder) s.config.renderRate existing =
    runFrom (Library.load existing files) {}

theorem offers_of_standard [Scalar α] [Wave.Interchange α] (standard : s.tools.loadFolder = Library.loadFolder)
    (folder : String) : s.Offers folder (offered s.files (.ofString folder) s.config.renderRate) := by
  intro existing
  rw [standard]
  rfl

/-- Loading a folder adds the first files of all names that are free, and counts them. -/
theorem runFrom_loadSamples (readable : ∀ f ∈ files, Decoding f.2) (offers : s.Offers folder files) :
    ∃ journal added, runFrom (loadSamples folder) s =
      (.ok added.length, { s with samples := s.samples ++ added, journal }) ∧
        Firsts (s.samples.map Prod.fst) files added := by
  obtain ⟨l, ran, firsts⟩ := runFrom_load readable (s.samples.map Prod.fst)
  obtain ⟨journal, told⟩ := runFrom_records s l.log
  have behind := foldl_assign firsts.distinct fun name member => (firsts.mem_names.mp member).1
  refine ⟨journal, l.loaded, ?_, firsts⟩
  unfold loadSamples
  rw [runFrom_get_bind, offers, ran]
  dsimp only
  rw [runFrom_bind_ok told, ← behind]
  rfl

/-- A folder gives a studio the first file of each name that is free and that can be decoded. The
samples that were there are kept as they are, what is counted is what was added, and the same
files add nothing when they are loaded again. -/
theorem samples_load_once (readable : ∀ f ∈ files, Decoding f.2) :
    (∀ existing, ∃ l, runFrom (Library.load existing files) {} = (.ok (), l) ∧ Firsts existing files l.loaded ∧
      ∀ name, name ∈ l.loaded.map Prod.fst ↔
        name ∉ existing ∧ ∃ path audio, (path, .ok audio) ∈ files ∧ sampleName path = name) ∧
    ∀ (s : Studio α) (folder : String), s.Offers folder files → ∃ t added,
      runFrom (loadSamples folder) s = (.ok added.length, t) ∧ t.samples = s.samples ++ added ∧
      Firsts (s.samples.map Prod.fst) files added ∧
      (∀ name audio, s.samples.lookup name = some audio → t.samples.lookup name = some audio) ∧
      ∃ u, runFrom (loadSamples folder) t = (.ok 0, u) ∧ u.samples = t.samples := by
  constructor
  · intro existing
    obtain ⟨l, ran, firsts⟩ := runFrom_load readable existing
    exact ⟨l, ran, firsts, fun name => firsts.mem_names⟩
  · intro s folder offers
    obtain ⟨journal, added, ran, firsts⟩ := runFrom_loadSamples readable offers
    let t : Studio α := { s with samples := s.samples ++ added, journal }
    have still : t.Offers folder files := offers
    obtain ⟨journal', again, ran', firsts'⟩ := runFrom_loadSamples readable still
    -- every name with a file was there already or has been added
    have none : again = [] := by
      refine firsts'.eq_nil fun path audio listed => ?_
      rw [List.map_append, List.mem_append]
      by_cases there : sampleName path ∈ s.samples.map Prod.fst
      · exact .inl there
      · exact .inr (firsts.mem_names.mpr ⟨there, path, audio, listed, rfl⟩)
    subst none
    refine ⟨t, added, ran, rfl, firsts, ?_, _, ran', List.append_nil t.samples⟩
    intro name audio found
    rw [List.lookup_append, found]
    rfl

def click : List UInt8 := [82, 73, 70, 70, 38, 0, 0, 0, 87, 65, 86, 69, 102, 109, 116, 32, 16, 0, 0, 0, 1, 0, 1, 0, 128,
  187, 0, 0, 0, 119, 1, 0, 2, 0, 16, 0, 100, 97, 116, 97, 2, 0, 0, 0, 255, 63]

def kit : Tree := { entries := [(["kit", "notes.txt"], .file ⟨#[1]⟩), (["kit", "hat.wav"], .file ⟨click.toArray⟩),
  (["kit", "808", "kick.wav"], .file ⟨#[1, 2]⟩), (["kit", "kick.wav"], .file ⟨click.toArray⟩),
  (["kit", "late", "kick.wav"], .file ⟨click.toArray⟩)] }

def rehearsal : Studio ℚ := { initial default .standard none kit with samples := [("hat", .mono #[1])] }

theorem samples_load_once_kit : let files := offered kit (.ofString "kit") 48000
    (∀ f ∈ files, Decoding f.2) ∧ rehearsal.Offers "kit" files ∧
      (∃ l, runFrom (Library.load [] files) {} = (.ok (), l) ∧ Firsts [] files l.loaded) ∧
      ∃ t added, runFrom (loadSamples "kit") rehearsal = (.ok added.length, t) ∧
        t.samples = ("hat", .mono #[1]) :: added ∧ Firsts ["hat"] files added ∧
        ∃ u, runFrom (loadSamples "kit") t = (.ok 0, u) ∧ u.samples = t.samples := by
  intro files
  have readable : ∀ f ∈ files, Decoding f.2 := decoding_offered kit (.ofString "kit") (by decide)
  have offers : rehearsal.Offers "kit" files := offers_of_standard rfl "kit"
  obtain ⟨alone, together⟩ := samples_load_once readable
  obtain ⟨l, ran, firsts, -⟩ := alone []
  obtain ⟨t, added, counted, behind, new, -, again⟩ := together rehearsal "kit" offers
  exact ⟨readable, offers, ⟨l, ran, firsts⟩, t, added, counted, behind, new, again⟩

end Studio

end Partita
