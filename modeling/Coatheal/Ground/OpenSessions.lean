import Coatheal.Ground.SessionLogs

/-!
# Which sessions stay open

When more than two sessions are open the oldest is closed, unless it is the live one, and at the end all are closed.
A session that is closed keeps what it has counted, which its metadata then says, and a session that was opened
well is not closed as it is opened.
-/

namespace Coatheal.Ground

/-- The writers of an open session are closed. -/
def LogManager.shutOne (m : LogManager) (entry : List Char × ℕ) : LogManager :=
  { m with opened := m.opened.filter fun other => other.1 ≠ entry.1 }.withLogs entry.2 SessionLogs.close

/-- Some sessions were closed. -/
structure Tidied (m m' : LogManager) : Prop where
  tables : Tables m'
  book : m'.book = m.book
  lines : m'.disk.lines = m.disk.lines
  opened : m'.opened ⊆ m.opened
  same : m' = { m with objects := m'.objects, opened := m'.opened, disk := m'.disk }

/-- No session was closed. -/
theorem Tidied.refl {m : LogManager} (h : Tables m) : Tidied m m := ⟨h, rfl, rfl, List.Subset.refl _, rfl⟩

/-- Sessions are closed one after another. -/
theorem Tidied.trans {m m' m'' : LogManager} (h : Tidied m m') (h' : Tidied m' m'') : Tidied m m'' := by
  refine ⟨h'.tables, h'.book.trans h.book, h'.lines.trans h.lines, fun _ hin => h.opened (h'.opened hin), ?_⟩
  refine h'.same.trans ?_
  rw [h.same]

namespace Tidied

variable {m m' : LogManager} (h : Tidied m m')

include h

/-- The live writers stay. -/
theorem logs : m'.logs = m.logs := by rw [h.same]

/-- The live session stays. -/
theorem liveSession : m'.liveSession = m.liveSession := liveSession_congr h.logs h.book

/-- The manager stays open or closed. -/
theorem closed : m'.closed = m.closed := by rw [h.same]

/-- The limit stays. -/
theorem bufferLimit : m'.bufferLimit = m.bufferLimit := by rw [h.same]

/-- The commands that wait stay. -/
theorem pendingCommands : m'.pendingCommands = m.pendingCommands := by rw [h.same]

/-- The events that wait stay. -/
theorem pendingEvents : m'.pendingEvents = m.pendingEvents := by rw [h.same]

end Tidied

/-- An open session is closed. -/
theorem Tables.tidied_shutOne {m : LogManager} (h : Tables m) {entry : List Char × ℕ} (hentry : entry ∈ m.opened) :
    Tidied m (m.shutOne entry) ∧ (m.shutOne entry).opened = m.opened.filter fun other => other.1 ≠ entry.1 := by
  obtain ⟨s, hs, hsession⟩ := h.opened entry hentry
  have hfound : ({ m with opened := m.opened.filter fun other => other.1 ≠ entry.1 } : LogManager).objects[entry.2]? =
      some s := hs
  have hopened : (m.shutOne entry).opened = m.opened.filter fun other => other.1 ≠ entry.1 := by
    unfold LogManager.shutOne
    rw [withLogs_eq hfound]
  have hobjects (j : ℕ) :
      (m.shutOne entry).objects[j]? = if entry.2 = j then some (s.close m.disk).1 else m.objects[j]? :=
    getElem?_withLogs hfound SessionLogs.close j
  have hdisk : (m.shutOne entry).disk = s.writeMeta m.disk := by
    unfold LogManager.shutOne
    rw [withLogs_eq hfound]
    rfl
  refine ⟨⟨⟨?_, ?_, ?_, ?_, ?_⟩, withLogs_map uncounted_close.bare entry.2, ?_, ?_, ?_⟩, hopened⟩
  · exact (withLogs_map close_inPlace.sessionId entry.2).symm ▸ h.sessions
  · exact (withLogs_map close_inPlace.dir entry.2).symm ▸ h.dirs
  · rw [hopened]
    exact (List.filter_sublist.map Prod.fst).nodup h.keys
  · intro other hother
    rw [hopened, List.mem_filter, decide_eq_true_eq] at hother
    obtain ⟨t, ht, hsessionOther⟩ := h.opened other hother.1
    refine ⟨t, ?_, hsessionOther⟩
    rw [hobjects, if_neg, ht]
    intro hplace
    rw [← hplace, hs] at ht
    obtain rfl := Option.some.inj ht
    exact hother.2 (hsessionOther.symm.trans hsession)
  · intro j t hj
    rw [hobjects] at hj
    rw [hopened, hdisk, List.mem_filter, decide_eq_true_eq]
    split at hj
    case isTrue heq =>
      obtain rfl := Option.some.inj hj
      exact Or.inr ⟨⟨rfl, rfl, rfl, rfl⟩, Function.update_self _ _ _⟩
    case isFalse hne =>
      refine (h.shut j t hj).imp (fun hin => ⟨hin, fun hsame => ?_⟩) fun hshut => ⟨hshut.1, ?_⟩
      · exact hne (place_of_nodup h.sessions hs hj (hsession.trans hsame.symm))
      · rw [SessionLogs.writeMeta_metas s m.disk fun hsame => hne (place_of_nodup h.dirs hs hj hsame.symm)]
        exact hshut.2
  · rw [hdisk]
    rfl
  · rw [hopened]
    exact List.filter_subset_self _
  · unfold LogManager.shutOne
    rw [withLogs_eq hfound]

/-- Texts are in order. -/
theorem textBefore_trans {first second third : List Char} (h : LogManager.textBefore first second = true)
    (h' : LogManager.textBefore second third = true) : LogManager.textBefore first third = true := by
  induction first generalizing second third with
  | nil =>
    cases third with
    | nil => cases second <;> exact absurd h' Bool.false_ne_true
    | cons => rfl
  | cons c first ih =>
    cases second with
    | nil => exact absurd h Bool.false_ne_true
    | cons d second =>
      cases third with
      | nil => exact absurd h' Bool.false_ne_true
      | cons e third =>
        simp only [LogManager.textBefore, Bool.or_eq_true, Bool.and_eq_true, decide_eq_true_eq, beq_iff_eq] at h h' ⊢
        rcases h with h | ⟨heq, h⟩
        · rcases h' with h' | ⟨heq', h'⟩
          · exact Or.inl (h.trans h')
          · exact Or.inl (heq' ▸ h)
        · rcases h' with h' | ⟨heq', h'⟩
          · exact Or.inl (heq ▸ h')
          · exact Or.inr ⟨heq.trans heq', ih h h'⟩

/-- No text comes before itself. -/
theorem textBefore_irrefl (text : List Char) : LogManager.textBefore text text = false := by
  induction text with
  | nil => rfl
  | cons c text ih => simp [LogManager.textBefore, ih]

/-- Sessions are in order. -/
theorem before_trans {first second third : List Char} (h : LogManager.before first second = true)
    (h' : LogManager.before second third = true) : LogManager.before first third = true := by
  simp only [LogManager.before, Bool.or_eq_true, Bool.and_eq_true, decide_eq_true_eq, beq_iff_eq] at h h' ⊢
  rcases h with h | ⟨heq, h⟩
  · rcases h' with h' | ⟨heq', h'⟩
    · exact Or.inl (h.trans h')
    · exact Or.inl (heq' ▸ h)
  · rcases h' with h' | ⟨heq', h'⟩
    · exact Or.inl (heq ▸ h')
    · exact Or.inr ⟨heq.trans heq', textBefore_trans h h'⟩

/-- No session comes before itself. -/
theorem before_irrefl (session : List Char) : LogManager.before session session = false := by
  simp [LogManager.before, textBefore_irrefl]

/-- The oldest session is one of them, and none comes before it. -/
theorem oldest_spec {opened : List (List Char × ℕ)} {entry : List Char × ℕ}
    (h : LogManager.oldest opened = some entry) :
    entry ∈ opened ∧ ∀ other ∈ opened, LogManager.before other.1 entry.1 = false := by
  cases opened with
  | nil => exact (nomatch h)
  | cons start rest =>
    obtain rfl := Option.some.inj h
    clear h
    -- The best so far is no later than any session that was looked at.
    suffices hall : ∀ seen best, best ∈ seen → (∀ other ∈ seen, LogManager.before other.1 best.1 = false) →
        ∀ result,
          result = rest.foldl (fun best other => if LogManager.before other.1 best.1 then other else best) best →
          result ∈ seen ++ rest ∧ ∀ other ∈ seen ++ rest, LogManager.before other.1 result.1 = false by
      have hstart (other : List Char × ℕ) (hin : other ∈ [start]) : LogManager.before other.1 start.1 = false := by
        rw [List.mem_singleton.mp hin]
        exact before_irrefl _
      exact hall [start] start (List.mem_singleton_self _) hstart _ rfl
    induction rest with
    | nil =>
      rintro seen best hbest hfirst result rfl
      rw [List.append_nil]
      exact ⟨hbest, hfirst⟩
    | cons next rest ih =>
      rintro seen best hbest hfirst result rfl
      rw [List.append_cons, List.foldl_cons]
      refine ih (seen ++ [next]) _ ?_ ?_ _ rfl
      · split
        · exact List.mem_append_right _ (List.mem_singleton_self _)
        · exact List.mem_append_left _ hbest
      · intro other hother
        rw [List.mem_append, List.mem_singleton] at hother
        split
        case isTrue hless =>
          rcases hother with hother | rfl
          · by_contra hbefore
            rw [Bool.not_eq_false] at hbefore
            exact absurd (before_trans hbefore hless) (by rw [hfirst other hother]; exact Bool.false_ne_true)
          · exact before_irrefl _
        case isFalse hnot =>
          rcases hother with hother | rfl
          · exact hfirst other hother
          · exact Bool.eq_false_iff.mpr hnot

/-- A session stays open: it is the live one, or every other session that is not the live one comes before it. -/
def Stays (m : LogManager) (session : List Char) : Prop :=
  m.liveSession = some session ∨
    ∀ entry ∈ m.opened, m.liveSession = some entry.1 ∨ entry.1 = session ∨ LogManager.before entry.1 session = true

/-- The session that is closed, of more than two, is none that stays open. -/
theorem Tables.oldest_ne {m : LogManager} (h : Tables m) {session : List Char} {entry : List Char × ℕ}
    (hstays : Stays m session) (hmany : ¬ m.opened.length ≤ 2) (holdest : LogManager.oldest m.opened = some entry)
    (hlive : m.liveSession ≠ some entry.1) : session ≠ entry.1 := by
  rintro rfl
  rcases hstays with hstays | hstays
  · exact hlive hstays
  by_cases hthird : ∃ third ∈ m.opened, m.liveSession ≠ some third.1 ∧ third.1 ≠ entry.1
  · obtain ⟨third, hin, hnotLive, hother⟩ := hthird
    have hbefore : LogManager.before third.1 entry.1 = true :=
      ((hstays third hin).resolve_left hnotLive).resolve_left hother
    exact absurd hbefore (by rw [(oldest_spec holdest).2 third hin]; exact Bool.false_ne_true)
  · -- Otherwise there are only the live session and this one.
    have hsubset : m.opened.map Prod.fst ⊆ [m.liveSession.getD [], entry.1] := by
      intro key hkey
      obtain ⟨third, hin, rfl⟩ := List.mem_map.mp hkey
      by_contra hneither
      rw [List.mem_cons, List.mem_singleton, not_or] at hneither
      refine hthird ⟨third, hin, fun heq => hneither.1 ?_, hneither.2⟩
      rw [heq, Option.getD_some]
    have hlength := (List.subperm_of_subset h.keys hsubset).length_le
    rw [List.length_map] at hlength
    exact hmany hlength

/-- The oldest sessions are closed, but none that stays open. -/
theorem Tables.tidied_closeOldest (fuel : ℕ) {m : LogManager} (h : Tables m) :
    Tidied m (LogManager.closeOldest fuel m) ∧
      ∀ entry ∈ m.opened, Stays m entry.1 → entry ∈ (LogManager.closeOldest fuel m).opened := by
  induction fuel generalizing m with
  | zero => exact ⟨.refl h, fun _ hin _ => hin⟩
  | succ fuel ih =>
    unfold LogManager.closeOldest
    split
    · exact ⟨.refl h, fun _ hin _ => hin⟩
    case isFalse hmany =>
      split
      · exact ⟨.refl h, fun _ hin _ => hin⟩
      case h_2 oldest holdest =>
        split
        · exact ⟨.refl h, fun _ hin _ => hin⟩
        case isFalse hlive =>
          change Tidied m (LogManager.closeOldest fuel (m.shutOne oldest)) ∧
            ∀ entry ∈ m.opened, Stays m entry.1 → entry ∈ (LogManager.closeOldest fuel (m.shutOne oldest)).opened
          obtain ⟨hshut, hopened⟩ := h.tidied_shutOne (oldest_spec holdest).1
          obtain ⟨hrest, hkept⟩ := ih hshut.tables
          refine ⟨hshut.trans hrest, fun entry hin hstays => hkept entry ?_ ?_⟩
          · rw [hopened, List.mem_filter, decide_eq_true_eq]
            exact ⟨hin, h.oldest_ne hstays hmany holdest hlive⟩
          · unfold Stays
            rw [hshut.liveSession]
            exact hstays.imp_right fun hall other hother => hall other (hshut.opened hother)

/-- Sessions that are not live are closed one after another. -/
theorem Tables.tidied_foldl {m : LogManager} (h : Tables m) (rest : List (List Char × ℕ)) (hin : rest ⊆ m.opened)
    (hnodup : (rest.map Prod.fst).Nodup) :
    Tidied m (rest.foldl (fun m entry => if m.logs = some entry.2 then m else m.shutOne entry) m) ∧
      ∀ entry ∈ (rest.foldl (fun m entry => if m.logs = some entry.2 then m else m.shutOne entry) m).opened,
        entry ∈ rest → m.logs = some entry.2 := by
  induction rest generalizing m with
  | nil => exact ⟨.refl h, fun _ _ hnil => absurd hnil List.not_mem_nil⟩
  | cons first rest ih =>
    rw [List.map_cons, List.nodup_cons] at hnodup
    rw [List.foldl_cons]
    by_cases hlive : m.logs = some first.2
    · rw [if_pos hlive]
      obtain ⟨htidy, hlast⟩ := ih h (fun _ hmem => hin (List.mem_cons_of_mem _ hmem)) hnodup.2
      refine ⟨htidy, fun entry hopen hmem => ?_⟩
      rcases List.mem_cons.mp hmem with rfl | hmem
      · exact hlive
      · exact hlast entry hopen hmem
    · rw [if_neg hlive]
      obtain ⟨hshut, hopened⟩ := h.tidied_shutOne (hin List.mem_cons_self)
      have hrest : rest ⊆ (m.shutOne first).opened := by
        intro entry hmem
        rw [hopened, List.mem_filter, decide_eq_true_eq]
        exact ⟨hin (List.mem_cons_of_mem _ hmem), fun hsame => hnodup.1 (hsame ▸ List.mem_map_of_mem hmem)⟩
      obtain ⟨htidy, hlast⟩ := ih hshut.tables hrest hnodup.2
      refine ⟨hshut.trans htidy, fun entry hopen hmem => ?_⟩
      rcases List.mem_cons.mp hmem with rfl | hmem
      · have hleft := htidy.opened hopen
        rw [hopened, List.mem_filter, decide_eq_true_eq] at hleft
        exact absurd rfl hleft.2
      · exact hshut.logs ▸ hlast entry hopen hmem

/-- Only the live session is open then. -/
theorem Tables.tidied_closeOthers {m : LogManager} (h : Tables m) :
    Tidied m m.closeOthers ∧ ∀ entry ∈ m.closeOthers.opened, m.logs = some entry.2 := by
  obtain ⟨htidy, hlast⟩ := h.tidied_foldl m.opened (List.Subset.refl _) h.keys
  exact ⟨htidy, fun entry hopen => hlast entry hopen (htidy.opened hopen)⟩

end Coatheal.Ground
