import SwiftScribe.Command.Plan

/-!
# What writing does to a disk

A path is walked over directories only, so a disk on which every directory is still one leads every
path to where it led before. `Became` says this of a disk and what it has become, with the places
where a directory was made or a file was written; it is what one call leaves, and it goes through any
number of calls.

* `read_of_write`, `became_of_write`: a file that was written is there with its text, and all else is
  as it was.
* `makeDirs_ok`, `makeDirs_error`: making directories adds directories, and nothing else. Where it
  fails, one of them is missing in the end.
* `isDir_of_mem_parents`: a path leads nowhere unless all its parents are directories.
-/

namespace SwiftScribe.Files

/-! ## Texts and segments -/

theorem splitSlashes_ne_nil (cs : List Char) : splitSlashes cs ≠ [] := by
  fun_cases splitSlashes cs <;> simp_all

theorem splitSlashes_cons_of_ne {c : Char} {cs first : List Char} {rest : List (List Char)}
    (hc : c ≠ '/') (h : splitSlashes cs = first :: rest) :
    splitSlashes (c :: cs) = (c :: first) :: rest := by
  simp [splitSlashes, hc, h]

theorem slash_notMem_of_mem_splitSlashes {cs : List Char} :
    ∀ segment ∈ splitSlashes cs, '/' ∉ segment := by
  induction cs with
  | nil => simp [splitSlashes]
  | cons c cs ih =>
    by_cases hc : c = '/'
    · simpa [splitSlashes, hc] using ih
    · obtain ⟨first, rest, h⟩ := List.exists_cons_of_ne_nil (splitSlashes_ne_nil cs)
      rw [h] at ih
      rw [splitSlashes_cons_of_ne hc h]
      intro segment hm
      rcases List.mem_cons.1 hm with rfl | hm
      · have := ih first List.mem_cons_self
        simp [Ne.symm hc, this]
      · exact ih segment (List.mem_cons_of_mem _ hm)

/-- Putting a slash between the stretches gives the text back. -/
theorem intercalate_splitSlashes (cs : List Char) : ['/'].intercalate (splitSlashes cs) = cs := by
  induction cs with
  | nil => simp [splitSlashes]
  | cons c cs ih =>
    obtain ⟨first, rest, h⟩ := List.exists_cons_of_ne_nil (splitSlashes_ne_nil cs)
    by_cases hc : c = '/'
    · subst hc
      rw [splitSlashes, if_pos rfl, h, List.intercalate_cons_cons, ← h, ih]
      rfl
    · rw [splitSlashes_cons_of_ne hc h]
      rw [h] at ih
      cases rest with
      | nil => simpa using ih
      | cons second more =>
        rw [List.intercalate_cons_cons] at ih ⊢
        rw [← ih]
        rfl

/-- A stretch without slashes, and a slash, before a text. -/
theorem splitSlashes_append {segment : List Char} (h : '/' ∉ segment) (cs : List Char) :
    splitSlashes (segment ++ '/' :: cs) = segment :: splitSlashes cs := by
  induction segment with
  | nil => simp [splitSlashes]
  | cons c segment ih =>
    simp only [List.mem_cons, not_or] at h
    exact splitSlashes_cons_of_ne (Ne.symm h.1) (ih h.2)

theorem splitSlashes_of_notMem {segment : List Char} (h : '/' ∉ segment) :
    splitSlashes segment = [segment] := by
  induction segment with
  | nil => rfl
  | cons c segment ih =>
    simp only [List.mem_cons, not_or] at h
    exact splitSlashes_cons_of_ne (Ne.symm h.1) (ih h.2)

/-- Stretches without slashes are found again in the text that they make. -/
theorem splitSlashes_intercalate {stretches : List (List Char)} (hne : stretches ≠ [])
    (h : ∀ segment ∈ stretches, '/' ∉ segment) :
    splitSlashes (['/'].intercalate stretches) = stretches := by
  induction stretches with
  | nil => exact absurd rfl hne
  | cons first rest ih =>
    have hfirst := h first List.mem_cons_self
    cases rest with
    | nil => simpa using splitSlashes_of_notMem hfirst
    | cons second more =>
      have hrest := ih (List.cons_ne_nil _ _) fun segment hm => h segment (List.mem_cons_of_mem _ hm)
      rw [List.intercalate_cons_cons, List.append_assoc, List.singleton_append,
        splitSlashes_append hfirst, hrest]

theorem intercalate_append {front back : List String} (hfront : front ≠ []) (hback : back ≠ []) :
    "/".intercalate (front ++ back) = "/".intercalate front ++ "/" ++ "/".intercalate back := by
  induction front with
  | nil => exact absurd rfl hfront
  | cons first more ih =>
    cases more with
    | nil =>
      obtain ⟨second, others, rfl⟩ := List.exists_cons_of_ne_nil hback
      simp [String.intercalate_cons_cons]
    | cons second others =>
      rw [List.cons_append, List.cons_append, String.intercalate_cons_cons, ← List.cons_append,
        ih (List.cons_ne_nil _ _), String.intercalate_cons_cons]
      simp only [String.append_assoc]

/-- The segments of a path with slashes between them are the path. -/
theorem intercalate_segments (path : String) : "/".intercalate (segments path) = path := by
  rw [← String.toList_inj, String.toList_intercalate, segments, List.map_map]
  have hid : String.toList ∘ String.ofList = id := funext fun _ => String.toList_ofList
  rw [hid, List.map_id]
  exact intercalate_splitSlashes _

theorem segments_intercalate {texts : List String} (hne : texts ≠ [])
    (h : ∀ segment ∈ texts, '/' ∉ segment.toList) : segments ("/".intercalate texts) = texts := by
  have hsplit : splitSlashes (['/'].intercalate (texts.map String.toList)) =
      texts.map String.toList :=
    splitSlashes_intercalate (by simpa using hne) (by simpa using h)
  rw [segments, String.toList_intercalate]
  exact (congrArg (List.map String.ofList) hsplit).trans (by simp [Function.comp_def])

theorem slash_notMem_of_mem_segments {path segment : String} (h : segment ∈ segments path) :
    '/' ∉ segment.toList := by
  obtain ⟨stretch, hm, rfl⟩ := List.mem_map.1 h
  rw [String.toList_ofList]
  exact slash_notMem_of_mem_splitSlashes stretch hm

theorem segments_ne_nil (path : String) : segments path ≠ [] :=
  mt List.map_eq_nil_iff.1 (splitSlashes_ne_nil _)

/-- The last segment is empty right behind a slash. -/
theorem getLast?_segments_eq_empty_iff {path : String} :
    (segments path).getLast? = some "" ↔ path = "" ∨ path.toList.getLast? = some '/' := by
  constructor
  · intro h
    obtain ⟨front, hfront⟩ := List.getLast?_eq_some_iff.1 h
    have hpath := intercalate_segments path
    rw [hfront] at hpath
    by_cases hnil : front = []
    · left
      simpa [hnil] using hpath.symm
    · right
      rw [intercalate_append hnil (List.cons_ne_nil _ _)] at hpath
      simp [← hpath]
  · rintro (rfl | h)
    · rfl
    · obtain ⟨front, hfront⟩ := List.getLast?_eq_some_iff.1 h
      have hpath : path = "/".intercalate (segments (String.ofList front) ++ [""]) := by
        rw [intercalate_append (segments_ne_nil _) (List.cons_ne_nil _ _), intercalate_segments,
          ← String.toList_inj]
        simp [hfront]
      rw [hpath, segments_intercalate (by simp), List.getLast?_concat]
      intro segment hm
      rcases List.mem_append.1 hm with hm | hm
      · exact slash_notMem_of_mem_segments hm
      · simp [List.mem_singleton.1 hm]

/-! ## Directories above a path -/

theorem dropIdle_suffix (reversed : List String) : dropIdle reversed <:+ reversed := by
  fun_induction dropIdle reversed with
  | case1 => exact List.suffix_rfl
  | case2 first => exact List.suffix_rfl
  | case3 segment before _ _ ih => exact ih.trans (List.suffix_cons _ _)
  | case4 segment before _ _ => exact List.suffix_rfl

/-- What is left is one segment, or ends with a segment that goes somewhere. -/
theorem head_dropIdle {reversed : List String} {segment : String} {before : List String}
    (h : dropIdle reversed = segment :: before) (hb : before ≠ []) : isIdle segment = false := by
  fun_induction dropIdle reversed with
  | case1 => simp at h
  | case2 first => simp_all
  | case3 _ _ _ _ ih => exact ih h
  | case4 _ _ _ hidle => simp_all

/-- A directory above a path is the path without its end, and closing slashes are not a part of it. -/
theorem of_mem_above {reversed dir : List String} (h : dir ∈ above reversed) :
    (∃ last more, reversed.reverse = dir.reverse ++ last :: more) ∧
      ∀ segment before, dir = segment :: before → before ≠ [] → segment ≠ "" := by
  fun_induction above reversed with
  | case1 => simp at h
  | case2 first hroot => simp at h
  | case3 first hroot =>
    rw [List.mem_singleton.1 h]
    exact ⟨⟨first, [], rfl⟩, by simp⟩
  | case4 segment before _ hidle ih =>
    obtain ⟨⟨last, more, hrev⟩, hhead⟩ := ih h
    exact ⟨⟨last, more ++ [segment], by simp [hrev]⟩, hhead⟩
  | case5 segment before _ hidle ih =>
    rcases List.mem_cons.1 h with rfl | h
    · obtain ⟨skipped, hskipped⟩ := dropIdle_suffix before
      obtain ⟨last, more, hlast⟩ :=
        List.exists_cons_of_ne_nil (List.append_ne_nil_of_right_ne_nil skipped.reverse
          (List.cons_ne_nil segment []))
      refine ⟨⟨last, more, ?_⟩, fun first rest hdir hrest hempty => ?_⟩
      · rw [← hlast, ← List.append_assoc, ← List.reverse_append, hskipped, List.reverse_cons]
      · have := head_dropIdle hdir hrest
        simp [isIdle, hempty] at this
    · obtain ⟨⟨last, more, hrev⟩, hhead⟩ := ih h
      exact ⟨⟨last, more ++ [segment], by simp [hrev]⟩, hhead⟩

/-! ## Walking -/

namespace Disk

variable {disk after : Disk} {place : Place} {path : String}

theorem walk_append (disk : Disk) (place : Place) (front back : List String) :
    disk.walk place (front ++ back) = (disk.walk place front).bind (disk.walk · back) := by
  induction front generalizing place with
  | nil => rfl
  | cons segment front ih =>
    simp only [List.cons_append, walk]
    split
    · rfl
    · rfl
    · split
      · rfl
      · exact ih _

/-- Whatever a walk goes through is a directory. -/
theorem dir_of_walk_append {front back : List String} {segment : String} {start : Place}
    (h : disk.walk start (front ++ segment :: back) = .ok place) :
    ∃ dir, disk.walk start front = .ok dir ∧ disk.entry? dir = some .dir := by
  rw [walk_append] at h
  cases hfront : disk.walk start front with
  | error fault => simp [hfront, Except.bind] at h
  | ok dir =>
    refine ⟨dir, rfl, ?_⟩
    simp only [hfront, Except.bind, walk] at h
    split at h
    · cases h
    · cases h
    · assumption

/-- Where every directory is still one, a walk still leads to where it led. -/
theorem walk_of_dirs (hdirs : ∀ place, disk.entry? place = some .dir → after.entry? place = some .dir)
    {segments : List String} {start : Place} (h : disk.walk start segments = .ok place) :
    after.walk start segments = .ok place := by
  induction segments generalizing start with
  | nil => exact h
  | cons segment rest ih =>
    simp only [walk] at h ⊢
    split at h
    · cases h
    · cases h
    · rename_i hdir
      rw [hdirs _ hdir]
      split at h
      · cases h
      · rename_i hfits
        rw [if_neg hfits]
        exact ih h

/-- The place that a path starts from. -/
def start (disk : Disk) (path : String) : Place := if isAbsolute path then [] else disk.workDir

/-- Whether a path can be walked along at all. -/
def Proper (path : String) : Prop :=
  path ≠ "" ∧ '\x00' ∉ path.toList ∧ path.utf8ByteSize ≤ pathLimit

theorem locateSegments_eq_ok_iff {segments : List String} :
    disk.locateSegments path segments = .ok place ↔
      Proper path ∧ disk.walk (disk.start path) segments = .ok place := by
  unfold locateSegments Proper start
  split
  · simp_all
  · split
    · simp_all
    · split
      · rename_i hlong
        simp [Nat.not_le.2 hlong]
      · simp_all

/-- The segments of a path without the closing empty ones. -/
theorem locateNew_eq_ok_iff :
    disk.locateNew path = .ok place ↔ Proper path ∧
      disk.walk (disk.start path) ((segments path).reverse.dropWhile (· == "")).reverse =
        .ok place :=
  locateSegments_eq_ok_iff

theorem locate_eq_ok_iff :
    disk.locate path = .ok place ↔
      Proper path ∧ disk.walk (disk.start path) (segments path) = .ok place :=
  locateSegments_eq_ok_iff

/-- Whether a path leads to a directory, its closing slashes left aside. -/
def IsDir (disk : Disk) (path : String) : Prop :=
  ∃ place, disk.locateNew path = .ok place ∧ disk.entry? place = some .dir

theorem isDir_root (disk : Disk) : disk.IsDir "/" := ⟨[], rfl, rfl⟩

/-- A beginning of a path can be walked along too, and starts at the same place. -/
theorem start_and_proper_of_append (disk : Disk) {front rest : String} (hne : front ≠ "")
    (hpath : path = front ++ rest) (h : Proper path) :
    Proper front ∧ disk.start front = disk.start path := by
  subst hpath
  obtain ⟨_, hnul, hsize⟩ := h
  rw [String.toList_append, List.mem_append, not_or] at hnul
  rw [String.utf8ByteSize_append] at hsize
  refine ⟨⟨hne, hnul.1, by omega⟩, ?_⟩
  obtain ⟨first, more, hfront⟩ := List.exists_cons_of_ne_nil (by simpa using hne : front.toList ≠ [])
  simp [start, isAbsolute, hfront]

/-- **The directories above a path that leads somewhere are there.** -/
theorem isDir_of_mem_parents (h : disk.locate path = .ok place) {dir : String}
    (hm : dir ∈ parents path) (hne : dir ≠ "") : disk.IsDir dir := by
  obtain ⟨hproper, hwalk⟩ := locate_eq_ok_iff.1 h
  obtain ⟨reversed, habove, rfl⟩ := List.mem_map.1 hm
  obtain ⟨⟨last, more, hsegments⟩, hhead⟩ := of_mem_above habove
  rw [List.reverse_reverse] at hsegments
  obtain ⟨dirPlace, hdir, hentry⟩ := dir_of_walk_append (hsegments ▸ hwalk)
  by_cases hroot : reversed = [""]
  · rw [hroot]
    exact isDir_root disk
  have htext : pathText reversed = "/".intercalate reversed.reverse := by
    unfold pathText
    split
    · contradiction
    · rfl
  have hnil : reversed ≠ [] := by
    rintro rfl
    exact hne (by simp [htext])
  have hfound : segments (pathText reversed) = reversed.reverse := by
    rw [htext]
    refine segments_intercalate (by simpa using hnil) fun segment hs => ?_
    have hm : segment ∈ segments path := hsegments ▸ List.mem_append_left _ hs
    exact slash_notMem_of_mem_segments hm
  have hopen : reversed.dropWhile (· == "") = reversed := by
    obtain ⟨segment, before, rfl⟩ := List.exists_cons_of_ne_nil hnil
    have hsegment : segment ≠ "" := by
      by_cases hbefore : before = []
      · simpa [hbefore] using hroot
      · exact hhead segment before rfl hbefore
    simp [hsegment]
  have hrest : path = pathText reversed ++ ("/" ++ "/".intercalate (last :: more)) := by
    rw [htext, ← String.append_assoc, ← intercalate_append (by simpa using hnil) (List.cons_ne_nil _ _),
      ← hsegments, intercalate_segments]
  obtain ⟨hfront, hstart⟩ := start_and_proper_of_append disk hne hrest hproper
  refine ⟨dirPlace, locateNew_eq_ok_iff.2 ⟨hfront, ?_⟩, hentry⟩
  rw [hstart, hfound, List.reverse_reverse, hopen, hdir]

/-! ## Files -/

theorem find_eq_ok_iff {entry : Entry} :
    disk.find path = .ok (place, entry) ↔
      disk.locate path = .ok place ∧ disk.entry? place = some entry := by
  unfold find
  cases hlocate : disk.locate path with
  | error fault => simp [bind, Except.bind]
  | ok found =>
    cases hentry : disk.entry? found with
    | none =>
      simp only [bind, Except.bind, hentry, throw, throwThe, MonadExceptOf.throw, reduceCtorEq,
        Except.ok.injEq, false_iff, not_and]
      rintro rfl
      simp [hentry]
    | some there =>
      simp only [bind, Except.bind, hentry, pure, Except.pure, Except.ok.injEq, Prod.mk.injEq]
      constructor
      · rintro ⟨rfl, rfl⟩
        exact ⟨rfl, hentry⟩
      · rintro ⟨rfl, h⟩
        exact ⟨rfl, Option.some.inj (hentry.symm.trans h)⟩

theorem locateNew_eq_locate (h : path.toList.getLast? ≠ some '/') :
    disk.locateNew path = disk.locate path := by
  unfold locateNew locate
  by_cases hempty : path = ""
  · simp [locateSegments, hempty]
  · have hlast : (segments path).getLast? ≠ some "" := by
      rw [Ne, getLast?_segments_eq_empty_iff]
      exact not_or.2 ⟨hempty, h⟩
    obtain ⟨last, front, hreversed⟩ :=
      List.exists_cons_of_ne_nil (mt List.reverse_eq_nil_iff.1 (segments_ne_nil path))
    have hne : last ≠ "" := by
      rintro rfl
      exact hlast (by rw [← List.head?_reverse, hreversed, List.head?_cons])
    rw [hreversed, List.dropWhile_cons_of_neg (by simpa using hne), ← hreversed, List.reverse_reverse]

/-- A path of a file does not end with a slash. -/
theorem getLast?_ne_slash {text? : Option String} (h : disk.find path = .ok (place, .file text?)) :
    path.toList.getLast? ≠ some '/' := by
  intro hslash
  obtain ⟨hlocate, hentry⟩ := find_eq_ok_iff.1 h
  obtain ⟨front, hfront⟩ := List.getLast?_eq_some_iff.1 (getLast?_segments_eq_empty_iff.2 (.inr hslash))
  have hwalk := (locate_eq_ok_iff.1 hlocate).2
  rw [hfront] at hwalk
  obtain ⟨dir, hdir, hdirEntry⟩ := dir_of_walk_append hwalk
  rw [walk_append, hdir] at hwalk
  -- the empty segment stays at the directory before it
  have hstay : disk.walk dir [""] = .ok dir := by
    simp [walk, hdirEntry, follow, isIdle]
  have hplace : dir = place := by
    simpa [Except.bind, hstay] using hwalk
  rw [← hplace, hdirEntry] at hentry
  cases hentry

/-! ## What a disk has become -/

theorem lookup_filter_ne {entries : List (Place × Entry)} {other : Place} (h : other ≠ place) :
    (entries.filter (·.1 != place)).lookup other = entries.lookup other := by
  induction entries with
  | nil => rfl
  | cons first rest ih =>
    obtain ⟨there, entry⟩ := first
    by_cases hthere : there = place
    · subst hthere
      simp [List.lookup_cons, beq_false_of_ne h, ih]
    · simp [List.lookup_cons, hthere, ih]

theorem entry?_put (hplace : place ≠ []) (entry : Entry) (other : Place) :
    Disk.entry? (disk.put place entry) other =
      if other = place then some entry else disk.entry? other := by
  unfold entry? put
  by_cases hother : other = place
  · simp [hother, hplace]
  · simp [hother, List.lookup_cons, beq_false_of_ne hother, lookup_filter_ne hother]

/-- **What a disk has become** after directories were made and files were written: at every place
there is what was there, or a new directory, or a text written to a place that was not a directory. -/
structure Became (made : Place → Prop) (written : Place → String → Prop) (disk after : Disk) :
    Prop where
  workDir : after.workDir = disk.workDir
  entry (place : Place) :
    after.entry? place = disk.entry? place ∨
      (made place ∧ disk.entry? place = none ∧ after.entry? place = some .dir) ∨
      ∃ text, written place text ∧ disk.entry? place ≠ some .dir ∧
        after.entry? place = some (.file (some text))

namespace Became

variable {made made' : Place → Prop} {written written' : Place → String → Prop} {last : Disk}

theorem refl (disk : Disk) : Became made written disk disk := ⟨rfl, fun _ => .inl rfl⟩

theorem mono (h : Became made written disk after) (hmade : ∀ place, made place → made' place)
    (hwritten : ∀ place text, written place text → written' place text) :
    Became made' written' disk after where
  workDir := h.workDir
  entry place := by
    rcases h.entry place with heq | ⟨hm, hrest⟩ | ⟨text, hw, hrest⟩
    · exact .inl heq
    · exact .inr (.inl ⟨hmade _ hm, hrest⟩)
    · exact .inr (.inr ⟨text, hwritten _ _ hw, hrest⟩)

theorem trans (h : Became made written disk after) (h' : Became made written after last) :
    Became made written disk last where
  workDir := h'.workDir.trans h.workDir
  entry place := by
    rcases h'.entry place with heq' | ⟨hm', hnone, hdir⟩ | ⟨text, hw', hne, hfile⟩
    · rw [heq']
      exact h.entry place
    · rcases h.entry place with heq | ⟨_, _, hdir'⟩ | ⟨_, _, _, hfile'⟩
      · exact .inr (.inl ⟨hm', heq ▸ hnone, hdir⟩)
      · rw [hnone] at hdir'
        cases hdir'
      · rw [hnone] at hfile'
        cases hfile'
    · refine .inr (.inr ⟨text, hw', fun hdir => ?_, hfile⟩)
      rcases h.entry place with heq | ⟨_, hnone, _⟩ | ⟨_, _, hne', _⟩
      · exact hne (heq.trans hdir)
      · rw [hnone] at hdir
        cases hdir
      · exact hne' hdir

theorem dir (h : Became made written disk after) (hdir : disk.entry? place = some .dir) :
    after.entry? place = some .dir := by
  rcases h.entry place with heq | ⟨_, hnone, _⟩ | ⟨_, _, hne, _⟩
  · exact heq.trans hdir
  · rw [hnone] at hdir
    cases hdir
  · exact absurd hdir hne

/-- A file is still one. It has its text, unless another one was written. -/
theorem file (h : Became made written disk after) {text? : Option String}
    (hfile : disk.entry? place = some (.file text?)) :
    after.entry? place = some (.file text?) ∨
      ∃ text, written place text ∧ after.entry? place = some (.file (some text)) := by
  rcases h.entry place with heq | ⟨_, hnone, _⟩ | ⟨text, hw, _, htext⟩
  · exact .inl (heq.trans hfile)
  · rw [hnone] at hfile
    cases hfile
  · exact .inr ⟨text, hw, htext⟩

theorem locate (h : Became made written disk after) (hlocate : disk.locate path = .ok place) :
    after.locate path = .ok place := by
  obtain ⟨hproper, hwalk⟩ := locate_eq_ok_iff.1 hlocate
  refine locate_eq_ok_iff.2 ⟨hproper, walk_of_dirs (fun _ => h.dir) ?_⟩
  rwa [start, h.workDir]

theorem locateNew (h : Became made written disk after) (hlocate : disk.locateNew path = .ok place) :
    after.locateNew path = .ok place := by
  obtain ⟨hproper, hwalk⟩ := locateNew_eq_ok_iff.1 hlocate
  refine locateNew_eq_ok_iff.2 ⟨hproper, walk_of_dirs (fun _ => h.dir) ?_⟩
  rwa [start, h.workDir]

/-- Putting a directory where there is nothing. -/
theorem of_put_dir (hnone : disk.entry? place = none) (hmade : made place) :
    Became made written disk (disk.put place .dir) where
  workDir := rfl
  entry other := by
    have hplace : place ≠ [] := by
      rintro rfl
      cases hnone
    rw [entry?_put hplace]
    by_cases hother : other = place
    · subst hother
      exact .inr (.inl ⟨hmade, hnone, if_pos rfl⟩)
    · exact .inl (if_neg hother)

/-- Putting a text where there is no directory. -/
theorem of_put_file (hne : disk.entry? place ≠ some .dir) {text : String}
    (hwritten : written place text) :
    Became made written disk (disk.put place (.file (some text))) where
  workDir := rfl
  entry other := by
    have hplace : place ≠ [] := by
      rintro rfl
      exact hne rfl
    rw [entry?_put hplace]
    by_cases hother : other = place
    · subst hother
      exact .inr (.inr ⟨text, hwritten, hne, if_pos rfl⟩)
    · exact .inl (if_neg hother)

end Became

/-! ## One call -/

theorem became_of_makeDir (h : disk.makeDir path = .ok after) :
    Became (fun place => disk.locateNew path = .ok place) (fun _ _ => False) disk after := by
  unfold makeDir at h
  cases hlocate : disk.locateNew path with
  | error fault => simp [hlocate, bind, Except.bind] at h
  | ok place =>
    simp only [hlocate, bind, Except.bind] at h
    split at h
    · cases h
      exact .refl _
    · cases h
    · rename_i hnone
      cases h
      exact .of_put_dir hnone rfl

/-- A directory that cannot be made is not there. -/
theorem not_isDir_of_makeDir {fault : Fault} (h : disk.makeDir path = .error fault) :
    ¬disk.IsDir path := by
  rintro ⟨place, hlocate, hentry⟩
  simp [makeDir, hlocate, hentry, bind, Except.bind, pure, Except.pure] at h

theorem write_eq_ok_iff {text : String} :
    disk.write path text = .ok after ↔
      ∃ place, disk.locateNew path = .ok place ∧ disk.entry? place ≠ some .dir ∧
        path.toList.getLast? ≠ some '/' ∧ after = disk.put place (.file (some text)) := by
  unfold write
  cases hlocate : disk.locateNew path with
  | error fault => simp [bind, Except.bind]
  | ok place =>
    simp only [bind, Except.bind]
    split
    · rename_i hbad
      simp only [throw, throwThe, MonadExceptOf.throw, reduceCtorEq, Except.ok.injEq, false_iff]
      rintro ⟨_, rfl, hne, hlast, _⟩
      exact hbad.elim hne hlast
    · rename_i hgood
      rw [not_or] at hgood
      simp only [pure, Except.pure, Except.ok.injEq]
      constructor
      · rintro rfl
        exact ⟨_, rfl, hgood.1, hgood.2, rfl⟩
      · rintro ⟨_, rfl, _, _, rfl⟩
        rfl

/-- **What was written is there**, and all else is as it was. -/
theorem find_of_write {text : String} (h : disk.write path text = .ok after) :
    ∃ place, after.find path = .ok (place, .file (some text)) ∧
      Became (fun _ => False) (fun other written => other = place ∧ written = text) disk after := by
  obtain ⟨place, hlocate, hne, hlast, rfl⟩ := write_eq_ok_iff.1 h
  have hbecame : Became (fun _ => False) (fun other written => other = place ∧ written = text) disk
      (disk.put place (.file (some text))) := .of_put_file hne ⟨rfl, rfl⟩
  have hplace : place ≠ [] := by
    rintro rfl
    exact hne rfl
  rw [locateNew_eq_locate hlast] at hlocate
  refine ⟨place, find_eq_ok_iff.2 ⟨hbecame.locate hlocate, ?_⟩, hbecame⟩
  rw [entry?_put hplace, if_pos rfl]

/-- **A path that cannot be written to is none of a file.** -/
theorem find_ne_file_of_write {text : String} {fault : Fault}
    (h : disk.write path text = .error fault) (place : Place) (text? : Option String) :
    disk.find path ≠ .ok (place, .file text?) := by
  intro hfind
  have hlast := getLast?_ne_slash hfind
  obtain ⟨hlocate, hentry⟩ := find_eq_ok_iff.1 hfind
  rw [← locateNew_eq_locate hlast] at hlocate
  have hwrite : disk.write path text = .ok (disk.put place (.file (some text))) :=
    write_eq_ok_iff.2 ⟨place, hlocate, by simp [hentry], hlast, rfl⟩
  rw [hwrite] at h
  cases h

end Disk

/-! ## Directories -/

namespace Session

open Disk

variable {session : Session}

/-- A change either takes place or leaves all as it was. -/
theorem change_cases (f : Disk → Except Fault Disk) (session : Session) :
    (∃ disk, f session.disk = .ok disk ∧
        (change f).run session = (.ok (), { session with disk })) ∨
      ∃ fault, f session.disk = .error fault ∧ (change f).run session = (.error fault, session) := by
  unfold change StateT.run
  cases h : f session.disk with
  | ok disk => exact .inl ⟨disk, rfl, by simp [h]⟩
  | error fault => exact .inr ⟨fault, rfl, by simp [h]⟩

/-- What making directories does to a disk. -/
structure DirsMade (dirs : List String) (before : Session) (result : Except Fault Unit × Session) :
    Prop where
  printed : result.2.printed = before.printed
  became : Became (fun place => ∃ dir ∈ dirs, result.2.disk.locateNew dir = .ok place)
    (fun _ _ => False) before.disk result.2.disk
  /-- Where it fails, one of the directories is missing in the end. -/
  missing (fault : Fault) : result.1 = .error fault →
    ∃ dir ∈ dirs, dir ≠ "" ∧ ¬result.2.disk.IsDir dir

theorem dirsMade_makeDir {dir : String} (hdir : dir ≠ "") (session : Session) :
    DirsMade [dir] session ((change (·.makeDir dir)).run session) := by
  rcases change_cases (·.makeDir dir) session with ⟨disk, hdisk, hrun⟩ | ⟨fault, hfault, hrun⟩
  · rw [hrun]
    have hbecame := became_of_makeDir hdisk
    refine ⟨rfl, hbecame.mono (fun place h => ?_) (fun _ _ h => h), fun _ h => by cases h⟩
    exact ⟨dir, List.mem_singleton_self _, hbecame.locateNew h⟩
  · rw [hrun]
    exact ⟨rfl, .refl _, fun _ _ =>
      ⟨dir, List.mem_singleton_self _, hdir, not_isDir_of_makeDir hfault⟩⟩

namespace DirsMade

variable {dirs dirs' : List String} {result last : Except Fault Unit × Session}

theorem mono (h : DirsMade dirs session result) (hsub : dirs ⊆ dirs') :
    DirsMade dirs' session result where
  printed := h.printed
  became := h.became.mono (fun _ ⟨dir, hm, hdir⟩ => ⟨dir, hsub hm, hdir⟩) (fun _ _ h => h)
  missing fault hfault := by
    obtain ⟨dir, hm, hrest⟩ := h.missing fault hfault
    exact ⟨dir, hsub hm, hrest⟩

theorem trans (h : DirsMade dirs session result) (h' : DirsMade dirs result.2 last) :
    DirsMade dirs session last where
  printed := h'.printed.trans h.printed
  became := (h.became.mono (fun _ ⟨dir, hm, hdir⟩ => ⟨dir, hm, h'.became.locateNew hdir⟩)
    (fun _ _ h => h)).trans h'.became
  missing := h'.missing

end DirsMade

/-- The directories above are made only where the first one has nothing to be in. -/
theorem makeDirs_cons {dir : String} (hdir : dir ≠ "") (above : List String) (session : Session) :
    (sink.makeDirs (dir :: above)).run session =
      match (change (·.makeDir dir)).run session with
      | (.error .notFound, between) =>
        match (sink.makeDirs above).run between with
        | (.ok (), there) => (change (·.makeDir dir)).run there
        | failed => failed
      | result => result := by
  have hmakeDir : sink.makeDir dir = change (·.makeDir dir) := rfl
  rw [Sink.makeDirs, if_neg (by simpa using hdir), StateT.run_bind, hmakeDir]
  generalize (change (·.makeDir dir)).run session = first
  obtain ⟨result, between⟩ := first
  cases result with
  | ok _ => rfl
  | error fault =>
    cases fault with
    | notFound =>
      show StateT.run (sink.makeDirs above >>= _) between = _
      rw [StateT.run_bind]
      dsimp only
      generalize (sink.makeDirs above).run between = second
      obtain ⟨result, there⟩ := second
      cases result <;> rfl
    | _ => rfl

/-- **Making directories** adds directories and nothing else. -/
theorem dirsMade (dirs : List String) (session : Session) :
    DirsMade dirs session ((sink.makeDirs dirs).run session) := by
  induction dirs generalizing session with
  | nil => exact ⟨rfl, .refl _, fun _ h => by cases h⟩
  | cons dir above ih =>
    by_cases hdir : dir = ""
    · subst hdir
      exact ⟨rfl, .refl _, fun _ h => by cases h⟩
    have hfirst (session : Session) :
        DirsMade (dir :: above) session ((change (·.makeDir dir)).run session) :=
      (dirsMade_makeDir hdir session).mono (by simp)
    rw [makeDirs_cons hdir]
    split
    · rename_i between hrun
      have hbetween := hfirst session
      rw [hrun] at hbetween
      have habove := hbetween.trans ((ih between).mono (List.subset_cons_self _ _))
      split
      · rename_i there hthere
        rw [hthere] at habove
        exact habove.trans (hfirst there)
      · exact habove
    · exact hfirst session

end Session

end SwiftScribe.Files
