import WalletSession.Proofs.Store.Outlook

/-! What the operations on files do to how a tree looks. A file is read, written and removed in one
place, to which its path leads as long as the directories on the way are there; making directories
adds directories and nothing else. -/
namespace WalletSession

namespace Outlook

variable {v v' : Outlook} {start place : List String} {steps : List String} {p : FilePath}

/-- The path leads to a place for a file. -/
def Leads (v : Outlook) (p : FilePath) (place : List String) : Prop :=
  p.isClean = true ∧ p.isShort = true ∧ p.endsInSlash = false ∧
    ∃ name before above, p.steps.reverse = name :: before ∧ name ≠ "." ∧ name ≠ ".." ∧
      FileCursor.nameFits name = true ∧ v.walk before.reverse = .ok above ∧ place = above ++ [name]

theorem Leads.unique {other : List String} (leads : v.Leads p place) (leads' : v.Leads p other) :
    place = other := by
  obtain ⟨-, -, -, name, before, above, steps, -, -, -, walked, rfl⟩ := leads
  obtain ⟨-, -, -, name', before', above', steps', -, -, -, walked', rfl⟩ := leads'
  obtain ⟨rfl, rfl⟩ := List.cons.inj (steps.symm.trans steps')
  cases walked.symm.trans walked'
  rfl

theorem walk_start {before after : List String} (walked : v.walk (before ++ after) = .ok place) :
    ∃ place, v.walk before = .ok place := by
  rw [walk, walkFrom_append] at walked
  cases started : v.walkFrom [] before with
  | error e => simp [started, Except.bind] at walked
  | ok start => exact ⟨start, started⟩

/-- Directories that stand in one outlook stand in the other. -/
def Keeps (v v' : Outlook) : Prop := ∀ place, v place = some .directory → v' place = some .directory

theorem Keeps.walkFrom (keeps : v.Keeps v') (walked : v.walkFrom start steps = .ok place) :
    v'.walkFrom start steps = .ok place := by
  induction steps generalizing start with
  | nil => exact walked
  | cons step steps ih =>
    rw [walkFrom_cons] at walked ⊢
    cases entered : v.enter start step with
    | error e => simp [entered, Except.bind] at walked
    | ok next =>
      have still : v'.enter start step = .ok next :=
        enter_eq_ok_iff.mpr ((enter_eq_ok_iff.mp entered).imp_right (.imp_right fun ⟨name, found, stop⟩ =>
          ⟨name, keeps _ found, stop⟩))
      rw [entered] at walked
      rw [still]
      exact ih walked

theorem Leads.keeps (leads : v.Leads p place) (keeps : v.Keeps v') : v'.Leads p place := by
  obtain ⟨clean, short, plain, name, before, above, steps, dot, dots, fits, walked, rfl⟩ := leads
  exact ⟨clean, short, plain, name, before, above, steps, dot, dots, fits, keeps.walkFrom walked, rfl⟩

theorem keeps_update {kind : Option FileKind} (leaf : v place ≠ some .directory) :
    v.Keeps (Function.update v place kind) := by
  intro other found
  have apart : other ≠ place := fun same => leaf (same ▸ found)
  rw [Function.update_of_ne apart]
  exact found

/-- Directories were added, and nothing else is different. -/
def Grows (v v' : Outlook) : Prop :=
  ∀ place, v' place = v place ∨ v place = none ∧ v' place = some .directory

theorem Grows.refl (v : Outlook) : v.Grows v := fun _ => .inl rfl

theorem Grows.trans {v'' : Outlook} (grows : v.Grows v') (later : v'.Grows v'') : v.Grows v'' := by
  intro place
  rcases grows place with same | ⟨free, made⟩ <;> rcases later place with same' | ⟨free', made'⟩
  · exact .inl (same'.trans same)
  · exact .inr ⟨same ▸ free', made'⟩
  · exact .inr ⟨free, same'.trans made⟩
  · simp [made] at free'

theorem Grows.keeps (grows : v.Grows v') : v.Keeps v' := by
  intro place found
  rcases grows place with same | ⟨free, _⟩
  · rw [same, found]
  · simp [found] at free

theorem Grows.file {bytes : ByteArray} (grows : v.Grows v') :
    v' place = some (.file bytes) ↔ v place = some (.file bytes) := by
  rcases grows place with same | ⟨free, made⟩
  · rw [same]
  · simp [free, made]

theorem grows_update (free : v place = none) :
    v.Grows (Function.update v place (some .directory)) := by
  intro other
  by_cases same : other = place
  · subst same
    exact .inr ⟨free, Function.update_self ..⟩
  · exact .inl (Function.update_of_ne same ..)

/-- Where a way leads once directories were added, it led before, or it ended where one was missing. -/
theorem Grows.walkFrom (grows : v.Grows v') (walked : v'.walkFrom start steps = .ok place) :
    v.walkFrom start steps = .ok place ∨ v.walkFrom start steps = .error .notFound := by
  induction steps generalizing start with
  | nil => exact .inl walked
  | cons step steps ih =>
    rw [walkFrom_cons] at walked ⊢
    cases entered : v'.enter start step with
    | error e => simp [entered, Except.bind] at walked
    | ok next =>
      have before : v.enter start step = .ok next ∨ v.enter start step = .error .notFound := by
        rcases enter_eq_ok_iff.mp entered with dot | dots | ⟨⟨dot, dots, fits⟩, found, stop⟩
        · exact .inl (enter_eq_ok_iff.mpr (.inl dot))
        · exact .inl (enter_eq_ok_iff.mpr (.inr (.inl dots)))
        rcases grows (start ++ [step]) with same | ⟨free, _⟩
        · exact .inl (enter_eq_ok_iff.mpr (.inr (.inr ⟨⟨dot, dots, fits⟩, same ▸ found, stop⟩)))
        · exact .inr (by simp [enter, dot, dots, fits, free])
      rw [entered] at walked
      rcases before with found | missing
      · rw [found]
        exact ih walked
      · rw [missing]
        exact .inr rfl

end Outlook

namespace FileTree

variable {t t' : FileTree} {p : FilePath} {place : List String} {bytes : ByteArray}
  {steps : List String}

theorem place_cons {last : String} {before : List String} : t.place (last :: before) =
    (t.walk before.reverse).bind fun c =>
      if last = "." then .ok (.directory c)
      else if last = ".." then .ok (.directory c.up)
      else if FileCursor.nameFits last then .ok (.entry c last)
      else .error .nameTooLong := rfl

theorem place_entry {c : FileCursor} {name : String} (found : t.place steps = .ok (.entry c name)) :
    ∃ before, steps = name :: before ∧ name ≠ "." ∧ name ≠ ".." ∧
      FileCursor.nameFits name = true ∧ t.look.walk before.reverse = .ok c.position ∧
      c.tree.look = t.look := by
  cases steps with
  | nil => cases found
  | cons last before =>
    rw [place_cons] at found
    rcases t.walk_cases before.reverse with ⟨here, walked, seen, same⟩ | ⟨e, walked, -⟩
    · rw [walked] at found
      change (if last = "." then Except.ok (FilePlace.directory here) else _) = _ at found
      by_cases dot : last = "."
      · simp [dot] at found
      by_cases dots : last = ".."
      · simp [dots] at found
      by_cases fits : FileCursor.nameFits last = true
      · simp only [dot, dots, fits, if_false, if_true, Except.ok.injEq, FilePlace.entry.injEq] at found
        obtain ⟨rfl, rfl⟩ := found
        exact ⟨before, rfl, dot, dots, fits, seen, same⟩
      · simp [dot, dots, fits] at found
    · rw [walked] at found
      cases found

/-- What is found at a name is what is seen at its place. -/
theorem look_entry {c : FileCursor} (seen : c.tree.look = t.look) (name : String) :
    t.look (c.position ++ [name]) = (c.here.lookup name).bind (·.look []) := by
  rw [← seen, FileCursor.look_here, Directory.look_cons]

theorem locate_of_leads (leads : t.look.Leads p place) :
    ∃ c name, t.locate p = .ok (.entry c name) ∧ place = c.position ++ [name] ∧
      c.tree.look = t.look := by
  obtain ⟨clean, short, -, name, before, above, steps, dot, dots, fits, walked, rfl⟩ := leads
  rcases t.walk_cases before.reverse with ⟨c, walked', seen, same⟩ | ⟨e, -, seen⟩
  · refine ⟨c, name, ?_, ?_, same⟩
    · rw [locate, clean, short, steps, place_cons, walked']
      simp [Except.bind, dot, dots, fits]
    · cases seen.symm.trans walked
      rfl
  · cases seen.symm.trans walked

theorem leads_of_locate {c : FileCursor} {name : String} (located : t.locate p = .ok (.entry c name))
    (plain : p.endsInSlash = false) :
    t.look.Leads p (c.position ++ [name]) ∧ c.tree.look = t.look := by
  unfold locate at located
  split at located
  · cases located
  split at located
  · cases located
  next clean short =>
    obtain ⟨before, steps, dot, dots, fits, walked, same⟩ := place_entry located
    exact ⟨⟨by simpa using clean, by simpa using short, plain, name, before, _, steps, dot, dots, fits,
      walked, rfl⟩, same⟩

theorem find_eq : t.find p = (t.locate p).bind fun
    | .directory c => .ok (.directory c.here)
    | .entry c name =>
      match c.here.lookup name with
      | none => .error .notFound
      | some (.file bytes) => if p.endsInSlash then .error .notDirectory else .ok (.file bytes)
      | some node => .ok node := rfl

theorem write_eq : t.write p bytes = (t.locate p).bind fun
    | .directory _ => .error .isDirectory
    | .entry c name =>
      if p.endsInSlash then .error .isDirectory
      else
        match c.here.lookup name with
        | some (.directory _) => .error .isDirectory
        | _ => .ok { c with here := c.here.put name (.file bytes) }.tree := rfl

theorem removeFile_eq : t.removeFile p = (t.locate p).bind fun
    | .directory _ => .error .isDirectory
    | .entry c name =>
      match c.here.lookup name with
      | none => .error .notFound
      | some (.directory _) => .error .isDirectory
      | some (.file _) =>
        if p.endsInSlash then .error .notDirectory
        else .ok { c with here := c.here.erase name }.tree := rfl

theorem makeDirectory_eq : t.makeDirectory steps = (t.place steps).bind fun
    | .directory _ => .error .exists
    | .entry c name =>
      match c.here.lookup name with
      | some _ => .error .exists
      | none => .ok { c with here := c.here.put name (.directory []) }.tree := rfl

/-- What stands at the place of a path is what is found at its last name. -/
theorem leads_cases (leads : t.look.Leads p place) :
    ∃ c name, t.locate p = .ok (.entry c name) ∧ place = c.position ++ [name] ∧
      c.tree.look = t.look ∧
      (c.here.lookup name = none ∧ t.look place = none ∨
        (∃ bytes, c.here.lookup name = some (.file bytes) ∧ t.look place = some (.file bytes)) ∨
        ∃ inner, c.here.lookup name = some (.directory inner) ∧ t.look place = some .directory) := by
  obtain ⟨c, name, located, rfl, same⟩ := locate_of_leads leads
  refine ⟨c, name, located, rfl, same, ?_⟩
  rw [look_entry same]
  rcases held : c.here.lookup name with _ | bytes | inner
  · exact .inl ⟨rfl, rfl⟩
  · exact .inr (.inl ⟨bytes, rfl, rfl⟩)
  · exact .inr (.inr ⟨inner, rfl, rfl⟩)

/-- A file is read where its path leads to. -/
theorem read_eq_ok_iff : t.read p = .ok bytes ↔
    ∃ place, t.look.Leads p place ∧ t.look place = some (.file bytes) := by
  have whole : t.read p = .ok bytes ↔ t.find p = .ok (.file bytes) := by
    rw [read]
    rcases t.find p with e | bytes' | inner
    · exact ⟨nofun, nofun⟩
    · exact ⟨fun same => by cases same; rfl, fun same => by cases same; rfl⟩
    · exact ⟨nofun, nofun⟩
  rw [whole, find_eq]
  constructor
  · intro found
    rcases located : t.locate p with e | c | ⟨c, name⟩
    · simp [located, Except.bind] at found
    · simp [located, Except.bind] at found
    cases plain : p.endsInSlash with
    | true => rcases held : c.here.lookup name with _ | _ | _ <;>
        simp [located, held, plain, Except.bind] at found
    | false =>
      obtain ⟨leads, -⟩ := leads_of_locate located plain
      refine ⟨_, leads, ?_⟩
      obtain ⟨c, name, located', -, -, ⟨held, -⟩ | ⟨_, held, stands⟩ | ⟨_, held, -⟩⟩ :=
        leads_cases leads
      · simp [located', held, Except.bind] at found
      · simp only [located', held, plain, Except.bind, Bool.false_eq_true, if_false] at found
        cases found
        exact stands
      · simp [located', held, Except.bind] at found
  · rintro ⟨place, leads, stands⟩
    obtain ⟨c, name, located, -, -, ⟨-, other⟩ | ⟨_, held, found⟩ | ⟨_, -, other⟩⟩ :=
      leads_cases leads
    · simp [stands] at other
    · cases stands.symm.trans found
      simp [located, held, Except.bind, leads.2.2.1]
    · simp [stands] at other

theorem write_of_leads (bytes : ByteArray) (leads : t.look.Leads p place)
    (leaf : t.look place ≠ some .directory) : ∃ t', t.write p bytes = .ok t' ∧
      t'.look = Function.update t.look place (some (.file bytes)) := by
  obtain ⟨c, name, located, rfl, same, held⟩ := leads_cases leads
  refine ⟨{ c with here := c.here.put name (.file bytes) }.tree, ?_, ?_⟩
  · rcases held with ⟨held, -⟩ | ⟨_, held, -⟩ | ⟨_, -, stands⟩
    · simp [write_eq, located, Except.bind, leads.2.2.1, held]
    · simp [write_eq, located, Except.bind, leads.2.2.1, held]
    · exact absurd stands leaf
  · rw [← same] at leaf ⊢
    exact FileCursor.look_put leaf fun _ _ => rfl

theorem write_eq_ok (written : t.write p bytes = .ok t') :
    ∃ place, t.look.Leads p place ∧ t.look place ≠ some .directory ∧
      t'.look = Function.update t.look place (some (.file bytes)) := by
  have plain : p.endsInSlash = false ∧ ∃ c name, t.locate p = .ok (.entry c name) := by
    rw [write_eq] at written
    rcases located : t.locate p with e | c | ⟨c, name⟩ <;> cases plain : p.endsInSlash <;>
      simp_all [Except.bind]
  obtain ⟨plain, c, name, located⟩ := plain
  obtain ⟨leads, -⟩ := leads_of_locate located plain
  have leaf : t.look (c.position ++ [name]) ≠ some .directory := by
    intro stands
    obtain ⟨c', name', located', -, -, ⟨_, stands'⟩ | ⟨_, _, stands'⟩ | ⟨_, held, -⟩⟩ :=
      leads_cases leads
    · simp [stands] at stands'
    · simp [stands] at stands'
    · simp [write_eq, located', Except.bind, plain, held] at written
  obtain ⟨t'', written', look⟩ := write_of_leads bytes leads leaf
  cases written.symm.trans written'
  exact ⟨_, leads, leaf, look⟩

theorem removeFile_of_leads (leads : t.look.Leads p place)
    (stands : t.look place = some (.file bytes)) :
    ∃ t', t.removeFile p = .ok t' ∧ t'.look = Function.update t.look place none := by
  obtain ⟨c, name, located, rfl, same, held⟩ := leads_cases leads
  refine ⟨{ c with here := c.here.erase name }.tree, ?_, ?_⟩
  · rcases held with ⟨-, nothing⟩ | ⟨_, held, -⟩ | ⟨_, -, other⟩
    · simp [stands] at nothing
    · simp [removeFile_eq, located, Except.bind, leads.2.2.1, held]
    · simp [stands] at other
  · rw [← same] at stands ⊢
    exact FileCursor.look_erase (by simp [stands])

/-- What cannot be found cannot be removed. -/
theorem removeFile_of_notFound (missing : t.find p = .error .notFound) :
    t.removeFile p = .error .notFound := by
  rw [find_eq] at missing
  rw [removeFile_eq]
  rcases located : t.locate p with e | c | ⟨c, name⟩
  · simpa [located, Except.bind] using missing
  · simp [located, Except.bind] at missing
  · rcases held : c.here.lookup name with _ | _ | _ <;> cases plain : p.endsInSlash <;>
      simp [located, held, plain, Except.bind] at missing ⊢

theorem makeDirectory_eq_ok (made : t.makeDirectory steps = .ok t') :
    ∃ place, t.look place = none ∧ t'.look = Function.update t.look place (some .directory) ∧
      t'.look.walk steps.reverse = .ok place := by
  rw [makeDirectory_eq] at made
  rcases located : t.place steps with e | c | ⟨c, name⟩
  · simp [located, Except.bind] at made
  · simp [located, Except.bind] at made
  obtain ⟨before, rfl, dot, dots, fits, walked, same⟩ := place_entry located
  rcases held : c.here.lookup name with _ | node
  · have free : t.look (c.position ++ [name]) = none := by
      rw [look_entry same, held]
      rfl
    have leaf : c.tree.look (c.position ++ [name]) ≠ some .directory := by simp [same, free]
    have look : t'.look = Function.update t.look (c.position ++ [name]) (some .directory) := by
      simp only [located, held, Except.bind, Except.ok.injEq] at made
      rw [← made, ← same]
      exact FileCursor.look_put leaf fun _ _ => rfl
    refine ⟨_, free, look, ?_⟩
    have above := (Outlook.grows_update free).keeps.walkFrom walked
    rw [List.reverse_cons, Outlook.walk, Outlook.walkFrom_append, look, above]
    simp [Except.bind, Outlook.walkFrom, Outlook.enter, dot, dots, fits]
  · simp [located, held, Except.bind] at made

theorem walk_isOk_iff : (t.walk steps).isOk = true ↔ ∃ place, t.look.walk steps = .ok place := by
  rcases t.walk_cases steps with ⟨c, walked, seen, -⟩ | ⟨e, walked, seen⟩
  · simp [walked, seen, Except.isOk, Except.toBool]
  · simp [walked, seen, Except.isOk, Except.toBool]

theorem makeDirectory_of_walk (walked : t.look.walk steps.reverse = .ok place) :
    t.makeDirectory steps = .error .exists := by
  cases steps with
  | nil => rfl
  | cons last before =>
    rw [List.reverse_cons, Outlook.walk, Outlook.walkFrom_append] at walked
    rcases t.walk_cases before.reverse with ⟨c, found, seen, same⟩ | ⟨e, -, seen⟩
    · rw [Outlook.walk] at seen
      rw [seen] at walked
      change (t.look.enter c.position last).bind _ = _ at walked
      cases entered : t.look.enter c.position last with
      | error e => simp [entered, Except.bind] at walked
      | ok next =>
        rw [makeDirectory_eq, place_cons, found]
        rcases Outlook.enter_eq_ok_iff.mp entered with ⟨dot, -⟩ | ⟨dots, -⟩ | ⟨⟨dot, dots, fits⟩, stands, -⟩
        · simp [dot, Except.bind]
        · simp [dots, Except.bind]
        · rw [look_entry same] at stands
          rcases held : c.here.lookup last with _ | node
          · simp [held] at stands
          · simp [dot, dots, fits, held, Except.bind]
    · rw [Outlook.walk] at seen
      simp [seen, Except.bind] at walked

theorem makeLast_of_walk (walked : t.look.walk steps.reverse = .ok place) :
    t.makeLast steps = (.ok (), t) := by
  have made : t.isMade steps .exists = true := walk_isOk_iff.mpr ⟨_, walked⟩
  simp [makeLast, makeDirectory_of_walk walked, made]

/-- A way that is there already is left as it is. -/
theorem makeSteps_of_walk (walked : t.look.walk steps.reverse = .ok place) :
    t.makeSteps steps = (.ok (), t) := by
  unfold makeSteps
  split
  · rfl
  · exact makeLast_of_walk walked
  · rw [makeDirectory_of_walk walked]
    exact makeLast_of_walk walked

theorem makeLast_cases (t : FileTree) (steps : List String) :
    (∃ t', t.makeDirectory steps = .ok t' ∧ t.makeLast steps = (.ok (), t')) ∨
      ∃ e, t.makeDirectory steps = .error e ∧
        t.makeLast steps = (if t.isMade steps e then .ok () else .error e, t) := by
  rcases made : t.makeDirectory steps with e | t'
  · exact .inr ⟨e, rfl, by simp [makeLast, made]⟩
  · exact .inl ⟨t', rfl, by simp [makeLast, made]⟩

theorem makeLast_grows (t : FileTree) (steps : List String) :
    t.look.Grows (t.makeLast steps).2.look := by
  rcases t.makeLast_cases steps with ⟨t', made, eq⟩ | ⟨e, -, eq⟩ <;> rw [eq]
  · obtain ⟨place, free, look, -⟩ := makeDirectory_eq_ok made
    rw [look]
    exact Outlook.grows_update free
  · exact .refl _

theorem makeLast_ok_iff (t : FileTree) (steps : List String) : (t.makeLast steps).1 = .ok () ↔
    ∃ place, (t.makeLast steps).2.look.walk steps.reverse = .ok place := by
  constructor
  · intro done
    rcases t.makeLast_cases steps with ⟨t', made, eq⟩ | ⟨e, made, eq⟩ <;> rw [eq] at done ⊢
    · obtain ⟨place, -, -, walked⟩ := makeDirectory_eq_ok made
      exact ⟨place, walked⟩
    · have isMade : t.isMade steps e = true := by
        by_contra missing
        simp [missing] at done
      cases e <;> first | exact walk_isOk_iff.mp isMade | cases isMade
  · rintro ⟨place, walked⟩
    rcases t.makeLast_cases steps with ⟨t', -, eq⟩ | ⟨e, -, eq⟩
    · rw [eq]
    · rw [eq] at walked
      rw [makeLast_of_walk walked]

theorem makeSteps_grows (t : FileTree) (steps : List String) :
    t.look.Grows (t.makeSteps steps).2.look := by
  fun_induction makeSteps t steps with
  | case1 => exact .refl _
  | case2 last => exact makeLast_grows t [last]
  | case3 last above rest _ t' made fewer less =>
    have before : t.look.Grows t'.look := by
      split at made
      · rwa [made] at fewer
      · rwa [made] at less
    exact before.trans (makeLast_grows t' _)
  | case4 last above rest _ _ fewer less =>
    split
    · exact fewer
    · exact less
  | case5 => exact makeLast_grows t _

/-- A way was made if it can be walked afterwards. -/
theorem makeSteps_ok_iff (t : FileTree) (steps : List String) : (t.makeSteps steps).1 = .ok () ↔
    ∃ place, (t.makeSteps steps).2.look.walk steps.reverse = .ok place := by
  fun_induction makeSteps t steps with
  | case1 => exact ⟨fun _ => ⟨[], rfl⟩, fun _ => rfl⟩
  | case2 last => exact makeLast_ok_iff t [last]
  | case3 last above rest _ t' => exact makeLast_ok_iff t' _
  | case4 last above rest _ failed fewer less =>
    refine ⟨fun done => (failed _ (Prod.ext done rfl)).elim, fun ⟨place, walked⟩ => ?_⟩
    by_cases dot : last = "."
    · rw [if_pos dot, List.reverse_cons, List.reverse_cons, List.append_assoc] at walked
      rw [if_pos dot]
      exact fewer.mpr (Outlook.walk_start walked)
    · rw [if_neg dot, List.reverse_cons] at walked
      rw [if_neg dot]
      exact less.mpr (Outlook.walk_start walked)
  | case5 => exact makeLast_ok_iff t _

end FileTree

end WalletSession
