import BookingPlatform.Sessions

/-!
# Chains of refresh tokens

The tokens of a family are meant to form one chain through `replacedById`, with
only the last of them live.  A rotation checks its token before its transaction
and updates the row by identifier alone, so the chain holds as long as no two
rotations of one token overlap.

## Main definitions

* `SuccessorChain`, `FamiliesChained` — the tokens of a family form a chain.
* `OneLiveToken` — at most one of them is live.
* `FindsUnreplaced` — a rotation finds its token unreplaced.
* `SessionsInvariant` — what every reachable state keeps.

## Main results

* `chained_of_change_iff` — over one step the chains survive exactly when the
  token it exchanges has not been replaced.
* `tokens_single_use_iff` — along a run the chains and single use hold exactly when
  every rotation finds its token unreplaced.
-/

namespace BookingPlatform

open Runs TwoPhase

/-! ### Chains of tokens -/

/-- Each token is replaced by the next, and the last by none. -/
def SuccessorChain : List RefreshToken → Prop
  | [] => True
  | [t] => t.replacedById = none
  | t :: u :: l => t.replacedById = some u.id ∧ SuccessorChain (u :: l)

/-- The token of a chain that has not been replaced is its last. -/
theorem SuccessorChain.eq_append {l : List RefreshToken} (h : SuccessorChain l) {t : RefreshToken}
    (ht : t ∈ l) (hlast : t.replacedById = none) : ∃ l', l = l' ++ [t] := by
  induction l with
  | nil => cases ht
  | cons u l ih =>
    cases l with
    | nil =>
      rw [List.mem_singleton] at ht
      exact ⟨[], by rw [ht, List.nil_append]⟩
    | cons v l =>
      rcases List.mem_cons.mp ht with heq | ht
      · rw [← heq, SuccessorChain, hlast] at h
        cases h.1
      · obtain ⟨l', hl'⟩ := ih h.2 ht
        exact ⟨u :: l', by rw [hl', List.cons_append]⟩

/-- A token of a chain that has been replaced is followed by its replacement. -/
theorem SuccessorChain.next {l : List RefreshToken} (h : SuccessorChain l) {t : RefreshToken}
    (ht : t ∈ l) (hnext : t.replacedById ≠ none) :
    ∃ l₁ u l₂, l = l₁ ++ t :: u :: l₂ ∧ t.replacedById = some u.id := by
  induction l with
  | nil => cases ht
  | cons u l ih =>
    cases l with
    | nil =>
      rw [List.mem_singleton] at ht
      rw [ht] at hnext
      exact absurd h hnext
    | cons v l =>
      rcases List.mem_cons.mp ht with heq | ht
      · rw [heq]
        exact ⟨[], v, l, rfl, h.1⟩
      · obtain ⟨l₁, w, l₂, hl, hw⟩ := ih h.2 ht
        exact ⟨u :: l₁, w, l₂, by rw [hl, List.cons_append], hw⟩

/-- The head of two neighbours in a chain is replaced by the second. -/
theorem SuccessorChain.of_append {l₁ l₂ : List RefreshToken} {t u : RefreshToken}
    (h : SuccessorChain (l₁ ++ t :: u :: l₂)) : t.replacedById = some u.id := by
  induction l₁ with
  | nil => exact h.1
  | cons v l₁ ih =>
    cases l₁ with
    | nil => exact ih h.2
    | cons w l₁ => exact ih h.2

/-- A chain grows at its end. -/
theorem SuccessorChain.snoc {l : List RefreshToken} {t : RefreshToken} (t' u : RefreshToken)
    (h : SuccessorChain (l ++ [t])) (hid : t'.id = t.id) (ht' : t'.replacedById = some u.id)
    (hu : u.replacedById = none) : SuccessorChain (l ++ [t', u]) := by
  induction l with
  | nil => exact ⟨ht', hu⟩
  | cons v l ih =>
    cases l with
    | nil =>
      obtain ⟨hv, -⟩ := h
      exact ⟨by rw [hv, hid], ht', hu⟩
    | cons w l => exact ⟨h.1, ih h.2⟩

/-- A replacement leaves the other tokens as they are. -/
theorem map_replaceBy_of_ne {l : List RefreshToken} {token : RefreshToken} {id : Uuid}
    (h : ∀ t ∈ l, t.id ≠ token.id) :
    (l.map fun t => if t.id = token.id then token.replaceBy id else t) = l :=
  (List.map_congr_left fun t ht => if_neg (h t ht)).trans (List.map_id l)

/-- **Exchanging a token of a chain for a new one gives a chain exactly when the
token is the last.** -/
theorem successorChain_rotate_iff {l : List RefreshToken} {token new : RefreshToken}
    (h : SuccessorChain l) (hnodup : (l.map RefreshToken.id).Nodup) (htoken : token ∈ l)
    (hfresh : ∀ t ∈ l, t.id ≠ new.id) (hnew : new.replacedById = none) :
    SuccessorChain ((l.map fun t => if t.id = token.id then token.replaceBy new.id else t) ++ [new])
      ↔ token.replacedById = none := by
  constructor
  · intro hafter
    by_contra hrep
    -- the token had a successor, and now the chain would have it followed by two
    obtain ⟨l₁, u, l₂, rfl, hu⟩ := h.next htoken hrep
    rw [List.map_append, List.map_cons, List.map_cons, List.append_assoc, List.cons_append,
      List.cons_append] at hafter
    have hnext := hafter.of_append
    rw [if_pos rfl] at hnext
    have hid : new.id = u.id := by
      have hinj := Option.some.inj hnext
      split at hinj
      · next heq => rw [heq]; exact hinj
      · exact hinj
    exact hfresh u (by simp) hid.symm
  · intro hlast
    -- the token is the last of its chain, and its replacement comes after it
    obtain ⟨l, rfl⟩ := h.eq_append htoken hlast
    rw [List.map_append, List.nodup_append] at hnodup
    have hne : ∀ t ∈ l, t.id ≠ token.id := fun t ht =>
      hnodup.2.2 t.id (List.mem_map_of_mem ht) token.id (List.mem_singleton_self token.id)
    have hgrown := h.snoc (token.replaceBy new.id) new rfl rfl hnew
    rw [List.map_append, map_replaceBy_of_ne hne, List.map_singleton, if_pos rfl,
      List.append_assoc]
    exact hgrown

/-- A map that keeps identifiers and replacements keeps chains. -/
theorem successorChain_map {f : RefreshToken → RefreshToken} (hid : ∀ t, (f t).id = t.id)
    (hrep : ∀ t, (f t).replacedById = t.replacedById) (l : List RefreshToken) :
    SuccessorChain (l.map f) ↔ SuccessorChain l := by
  induction l with
  | nil => exact Iff.rfl
  | cons t l ih =>
    cases l with
    | nil =>
      show (f t).replacedById = none ↔ t.replacedById = none
      rw [hrep]
    | cons u l =>
      show (f t).replacedById = some (f u).id ∧ SuccessorChain ((u :: l).map f) ↔ _
      rw [hrep, hid, ih]
      exact Iff.rfl

/-- The tokens of a family, oldest first. -/
def Database.familyTokens (db : Database) (familyId : Uuid) : List RefreshToken :=
  db.refreshTokens.findMany fun t => t.familyId = familyId

theorem mem_familyTokens {db : Database} {familyId : Uuid} {t : RefreshToken} :
    t ∈ db.familyTokens familyId ↔ t ∈ db.refreshTokens ∧ t.familyId = familyId := by
  rw [Database.familyTokens, Table.mem_findMany, decide_eq_true_eq]

/-- Every family's tokens are a chain. -/
def FamiliesChained (db : Database) : Prop :=
  ∀ familyId, SuccessorChain (db.familyTokens familyId)

/-- Every non-revoked family has at most one non-revoked token. -/
def OneLiveToken (db : Database) : Prop :=
  ∀ family ∈ db.refreshTokenFamilies, family.revoked = false →
    ∀ t ∈ db.familyTokens family.id, ∀ t' ∈ db.familyTokens family.id,
      t.revoked = false → t'.revoked = false → t = t'

/-- What holds of tokens whatever races: a token's family exists, and a token that
has been replaced is revoked. -/
structure TokensSound (db : Database) : Prop where
  family : ∀ t ∈ db.refreshTokens, ∃ f, db.refreshTokenFamilies.get? t.familyId = some f
  revoked : ∀ t ∈ db.refreshTokens, t.replacedById ≠ none → t.revoked = true

/-- In a chain only the last token can be live. -/
theorem oneLiveToken_of_chained {db : Database} (hsound : TokensSound db)
    (hchain : FamiliesChained db) : OneLiveToken db := by
  intro family _ _ t ht t' ht' hlive hlive'
  have hlast : ∀ u ∈ db.familyTokens family.id, u.revoked = false → u.replacedById = none := by
    intro u hu hu'
    by_contra hne
    have hrev := hsound.revoked u (mem_familyTokens.mp hu).1 hne
    rw [hu'] at hrev
    cases hrev
  obtain ⟨l, hl⟩ := (hchain family.id).eq_append ht (hlast t ht hlive)
  obtain ⟨l', hl'⟩ := (hchain family.id).eq_append ht' (hlast t' ht' hlive')
  rw [hl] at hl'
  exact List.head_eq_of_cons_eq (List.append_inj' hl' rfl).2

/-! ### Tokens over one step -/

/-- A step that exchanges a token finds it not yet replaced. -/
def FindsUnreplaced (e : AuthEvent) (db : Database) : Prop :=
  ∀ id, exchanged? e = some id → ∃ t, db.refreshTokens.get? id = some t ∧ t.replacedById = none

theorem findsUnreplaced_of_none {e : AuthEvent} (h : exchanged? e = none) (db : Database) :
    FindsUnreplaced e db := by
  intro id he
  rw [h] at he
  cases he

/-- **Where a token row comes from, over one step.** It was there, unchanged or now
revoked, or it is the one row that the step inserts: it has not been replaced, its
family is there, and its digest is new. -/
theorem token_origin {env : AuthEnv} {crypto : Crypto} {e : AuthEvent} {now : Instant}
    {db db' : Database} (h : AuthChange env crypto e now db db') :
    ∃ newId newHash, ∀ id t', db'.refreshTokens.get? id = some t' →
      (∃ t, db.refreshTokens.get? id = some t ∧ t.Follows t' ∧ (t' = t ∨ t'.revoked = true)) ∨
        (id = newId ∧ t'.tokenHash = newHash ∧ t'.replacedById = none ∧
          (∃ f, db'.refreshTokenFamilies.get? t'.familyId = some f) ∧
          ∀ t ∈ db.refreshTokens, t.tokenHash ≠ newHash) := by
  cases h with
  | quiet _ _ ht =>
    refine ⟨default, "", fun id t' hget => Or.inl ⟨t', ?_, .refl t', Or.inl rfl⟩⟩
    rw [← ht]
    exact hget
  | @login _ _ _ _ g family _ tfree _ hid hfresh hf ht =>
    refine ⟨g.refreshTokenId, hashToken crypto g.refreshToken, fun id t' hget => ?_⟩
    rw [ht, Table.get?_insert] at hget
    split at hget
    · next hk =>
      obtain rfl := Option.some.inj hget
      have hfamily : db'.refreshTokenFamilies.get? g.familyId = some family := by
        rw [hf, Table.get?_insert]
        exact if_pos hid.symm
      exact Or.inr ⟨hk, rfl, rfl, ⟨family, hfamily⟩, hfresh.2.2.1⟩
    · exact Or.inl ⟨t', hget, .refl t', Or.inl rfl⟩
  | @rotate c req call g out _ _ _ token family tfree htoken hfamily hcall hfresh hf ht =>
    refine ⟨g.refreshTokenId, hashToken crypto g.refreshToken, fun id t' hget => ?_⟩
    have hid : token.id = call.storedToken.id := (Table.get?_eq_some.mp htoken).2
    rw [← hid] at htoken
    rw [ht, get?_rotated tfree htoken] at hget
    split at hget
    · -- the token that is exchanged
      next hk =>
      obtain rfl := Option.some.inj hget
      rw [hk]
      exact Or.inl ⟨token, htoken, token.follows_replaceBy _, Or.inr rfl⟩
    · split at hget
      · -- its replacement, in the same family
        next hk =>
        obtain rfl := Option.some.inj hget
        rw [← hf, ← hcall] at hfamily
        exact Or.inr ⟨hk, rfl, rfl, ⟨family, hfamily⟩, hfresh.2.2.1⟩
      · exact Or.inl ⟨t', hget, .refl t', Or.inl rfl⟩
  | revoke _ _ _ ht =>
    refine ⟨default, "", fun id t' hget => Or.inl ?_⟩
    rw [ht, Table.get?_updateMany] at hget
    obtain ⟨t, ht', heq⟩ := Option.map_eq_some_iff.mp hget
    refine ⟨t, ht', ?_⟩
    split at heq
    · rw [← heq]
      exact ⟨t.follows_revoke, Or.inr rfl⟩
    · rw [← heq]
      exact ⟨.refl t, Or.inl rfl⟩

theorem tokensSound_of_change {env : AuthEnv} {crypto : Crypto} {e : AuthEvent} {now : Instant}
    {db db' : Database} (h : AuthChange env crypto e now db db') (hs : TokensSound db) :
    TokensSound db' := by
  obtain ⟨newId, newHash, horigin⟩ := token_origin h
  constructor
  · intro t' ht'
    rcases horigin _ t' (Table.get?_key ht') with ⟨t, ht, hfol, -⟩ | ⟨-, -, -, hfamily, -⟩
    · -- a family that was there still is
      obtain ⟨f, hf⟩ := hs.family t (Table.get?_eq_some.mp ht).1
      obtain ⟨f', hf', -⟩ := (sessionsEvolve_of_change h).family _ _ hf
      exact ⟨f', by rw [hfol.familyId_eq, hf']⟩
    · exact hfamily
  · intro t' ht' hrep
    rcases horigin _ t' (Table.get?_key ht') with ⟨t, ht, -, rfl | hrev⟩ | ⟨-, -, hnone, -⟩
    · exact hs.revoked _ (Table.get?_eq_some.mp ht).1 hrep
    · exact hrev
    · exact absurd hnone hrep

theorem familyTokens_ids_nodup (db : Database) (familyId : Uuid) :
    ((db.familyTokens familyId).map RefreshToken.id).Nodup :=
  db.refreshTokens.nodup.sublist (List.filter_sublist.map _)

/-- The tokens of a family after a rotation of one of them. -/
theorem familyTokens_rotated {db db' : Database} {new token : RefreshToken} {id : Uuid}
    (hnew : db.refreshTokens.get? (Keyed.key new) = none)
    (htoken : db.refreshTokens.get? token.id = some token) (hfam : new.familyId = token.familyId)
    (ht : db'.refreshTokens = (db.refreshTokens.insert new hnew).put (token.replaceBy id))
    (familyId : Uuid) :
    db'.familyTokens familyId =
      ((db.familyTokens familyId).map fun t => if t.id = token.id then token.replaceBy id else t)
        ++ if token.familyId = familyId then [new] else [] := by
  have hne : new.id ≠ token.id := by
    intro heq
    exact Option.some_ne_none _ (htoken.symm.trans (heq ▸ hnew))
  have hold : (db.refreshTokens.insert new hnew).get? (Keyed.key (token.replaceBy id))
      = some token := Table.get?_insert_of_some hnew htoken
  have hput := Table.findMany_put (p := fun t => t.familyId = familyId) hold rfl
  rw [Database.familyTokens, ht, hput, Table.findMany_insert, List.map_append]
  congr 1
  simp only [decide_eq_true_eq, hfam]
  split
  · exact congrArg (fun t => [t]) (if_neg hne)
  · rfl

/-- **A rotation keeps the chains exactly when its token has not been replaced.** -/
theorem chained_of_rotated_iff {db db' : Database} {new token : RefreshToken}
    (hnew : db.refreshTokens.get? (Keyed.key new) = none)
    (htoken : db.refreshTokens.get? token.id = some token) (hfam : new.familyId = token.familyId)
    (hlast : new.replacedById = none)
    (ht : db'.refreshTokens = (db.refreshTokens.insert new hnew).put (token.replaceBy new.id))
    (hchain : FamiliesChained db) : FamiliesChained db' ↔ token.replacedById = none := by
  have hrows := familyTokens_rotated hnew htoken hfam ht
  have hmem : token ∈ db.refreshTokens := (Table.get?_eq_some.mp htoken).1
  have hfresh : ∀ t ∈ db.familyTokens token.familyId, t.id ≠ new.id := by
    intro t ht heq
    have hold := Table.get?_key (mem_familyTokens.mp ht).1
    rw [key_refreshToken, heq] at hold
    exact Option.some_ne_none _ (hold.symm.trans hnew)
  -- only the token's own family changes
  have hown := successorChain_rotate_iff (hchain token.familyId)
    (familyTokens_ids_nodup db token.familyId) (mem_familyTokens.mpr ⟨hmem, rfl⟩) hfresh hlast
  have hfamily : db'.familyTokens token.familyId = _ := hrows token.familyId
  rw [if_pos rfl] at hfamily
  constructor
  · intro hchain'
    exact hown.mp (hfamily ▸ hchain' token.familyId)
  · intro hrep familyId
    by_cases hk : token.familyId = familyId
    · rw [← hk, hfamily]
      exact hown.mpr hrep
    · have hne : ∀ t ∈ db.familyTokens familyId, t.id ≠ token.id := by
        intro t ht heq
        obtain ⟨ht, htfam⟩ := mem_familyTokens.mp ht
        rw [Table.eq_of_key ht hmem heq] at htfam
        exact hk htfam
      rw [hrows, if_neg hk, List.append_nil, map_replaceBy_of_ne hne]
      exact hchain familyId

/-- The first token of a new family is a chain of its own. -/
theorem chained_of_first {db db' : Database} {new : RefreshToken} (hs : TokensSound db)
    (hnew : db.refreshTokens.get? (Keyed.key new) = none)
    (hfree : db.refreshTokenFamilies.get? new.familyId = none) (hlast : new.replacedById = none)
    (ht : db'.refreshTokens = db.refreshTokens.insert new hnew) (hchain : FamiliesChained db) :
    FamiliesChained db' := by
  intro familyId
  rw [Database.familyTokens, ht, Table.findMany_insert]
  by_cases hk : new.familyId = familyId
  · -- no token belongs to a family that is not there
    have hnone : db.familyTokens familyId = [] := by
      rw [List.eq_nil_iff_forall_not_mem]
      intro t hmem
      obtain ⟨hmem, hfam⟩ := mem_familyTokens.mp hmem
      obtain ⟨f, hf⟩ := hs.family t hmem
      rw [hfam, ← hk, hfree] at hf
      cases hf
    rw [← Database.familyTokens, hnone, if_pos (decide_eq_true hk)]
    exact hlast
  · rw [if_neg (by simpa using hk), List.append_nil]
    exact hchain familyId

/-- **The chains survive a step exactly when a token it exchanges has not been
replaced.** -/
theorem chained_of_change_iff {env : AuthEnv} {crypto : Crypto} {e : AuthEvent} {now : Instant}
    {db db' : Database} (h : AuthChange env crypto e now db db') (hs : TokensSound db)
    (hchain : FamiliesChained db) : FamiliesChained db' ↔ FindsUnreplaced e db := by
  cases h with
  | quiet he hf ht =>
    refine iff_of_true ?_ (findsUnreplaced_of_none he db)
    intro familyId
    rw [Database.familyTokens, ht]
    exact hchain familyId
  | login hfree tfree he hid hfresh hf ht =>
    exact iff_of_true (chained_of_first hs tfree hfresh.1 rfl ht hchain)
      (findsUnreplaced_of_none he db)
  | @rotate c req call g out _ _ _ token family tfree htoken hfam hcall hfresh hf ht =>
    have hid : token.id = call.storedToken.id := (Table.get?_eq_some.mp htoken).2
    have hget : db.refreshTokens.get? token.id = some token := by rw [hid]; exact htoken
    rw [chained_of_rotated_iff tfree hget hcall rfl ht hchain]
    constructor
    · intro hrep id he
      obtain rfl := Option.some.inj he
      exact ⟨token, htoken, hrep⟩
    · intro hfinds
      obtain ⟨t, htget, hrep⟩ := hfinds _ rfl
      rw [htoken] at htget
      rwa [Option.some.inj htget]
  | @revoke _ _ _ _ revokedId family he hfam hf ht =>
    -- a revocation neither links tokens nor takes links away
    refine iff_of_true ?_ (findsUnreplaced_of_none he db)
    intro familyId
    rw [Database.familyTokens, ht,
      Table.findMany_updateMany (f := RefreshToken.revoke) (fun _ => rfl), successorChain_map]
    · exact hchain familyId
    · intro t
      split <;> rfl
    · intro t
      split <;> rfl

/-! ### Digests -/

/-- No two token rows have one digest. -/
def HashesDistinct (db : Database) : Prop :=
  ∀ id id' t t', db.refreshTokens.get? id = some t → db.refreshTokens.get? id' = some t' →
    t.tokenHash = t'.tokenHash → id = id'

theorem hashesDistinct_of_change {env : AuthEnv} {crypto : Crypto} {e : AuthEvent} {now : Instant}
    {db db' : Database} (h : AuthChange env crypto e now db db') (hdb : HashesDistinct db) :
    HashesDistinct db' := by
  intro id id' t t' ht ht' hhash
  obtain ⟨newId, newHash, horigin⟩ := token_origin h
  rcases horigin id t ht with ⟨r, hr, hfol, -⟩ | ⟨hid, hnew, -, -, hfresh⟩
  · have hrt := hfol.tokenHash_eq.symm
    rcases horigin id' t' ht' with ⟨r', hr', hfol', -⟩ | ⟨-, hnew', -, -, hfresh⟩
    · have hrt' := hfol'.tokenHash_eq.symm
      exact hdb id id' r r' hr hr' (hrt.trans (hhash.trans hrt'.symm))
    · exact absurd (hrt.trans (hhash.trans hnew')) (hfresh r (Table.get?_eq_some.mp hr).1)
  · rcases horigin id' t' ht' with ⟨r', hr', hfol', -⟩ | ⟨hid', -⟩
    · have hrt' := hfol'.tokenHash_eq.symm
      exact absurd (hrt'.trans (hhash.symm.trans hnew)) (hfresh r' (Table.get?_eq_some.mp hr').1)
    · exact hid.trans hid'.symm

/-! ### Runs -/

/-- No session has been opened. -/
structure NoSessions (db : Database) : Prop where
  families : db.refreshTokenFamilies.rows = []
  tokens : db.refreshTokens.rows = []

/-- What holds in every reachable state, whatever races. -/
structure SessionsInvariant (env : AuthEnv) (crypto : Crypto) (s : AuthState) : Prop where
  coherent : TwoPhase.Coherent (authService env crypto) SessionsEvolve s
  sound : TokensSound s.store
  distinct : HashesDistinct s.store

theorem NoSessions.not_mem {db : Database} (h : NoSessions db) (t : RefreshToken) :
    t ∉ db.refreshTokens := by
  rw [Table.mem_def, h.tokens]
  exact List.not_mem_nil

theorem NoSessions.familyTokens {db : Database} (h : NoSessions db) (familyId : Uuid) :
    db.familyTokens familyId = [] := by
  rw [Database.familyTokens, Table.findMany, h.tokens]
  rfl

theorem sessionsInvariant_start {env : AuthEnv} {crypto : Crypto} {s : AuthState} (hidle : s.Idle)
    (hnone : NoSessions s.store) : SessionsInvariant env crypto s where
  coherent := hidle.coherent
  sound := ⟨fun t ht => absurd ht (hnone.not_mem t), fun t ht => absurd ht (hnone.not_mem t)⟩
  distinct := fun _ _ t _ ht => absurd (Table.get?_eq_some.mp ht).1 (hnone.not_mem t)

theorem sessionsInvariant_step {env : AuthEnv} {crypto : Crypto} (s : AuthState) (e : AuthEvent)
    (t : AuthState) (h : AuthStep env crypto s e t)
    (hs : SessionsInvariant env crypto s) : SessionsInvariant env crypto t := by
  have hchange := authChange_of_step h hs.coherent
  exact
    { coherent := TwoPhase.coherent_step (fun _ _ _ => SessionsEvolve.trans) h
        (sessionsEvolve_of_change hchange) hs.coherent
      sound := tokensSound_of_change hchange hs.sound
      distinct := hashesDistinct_of_change hchange hs.distinct }

/-- A run lets the sessions evolve. -/
theorem sessionsEvolve_run {env : AuthEnv} {crypto : Crypto} {s t : AuthState}
    {tr : List (Transition AuthState AuthEvent)} (hrun : Run (AuthStep env crypto) s tr t)
    (hs : SessionsInvariant env crypto s) : SessionsEvolve s.store t.store :=
  hrun.related (I := SessionsInvariant env crypto)
    (Q := fun s t : AuthState => SessionsEvolve s.store t.store) (fun s => .refl s.store)
    (fun _ _ _ => SessionsEvolve.trans) sessionsInvariant_step
    (fun _ _ _ h hs => sessionsEvolve_of_change (authChange_of_step h hs.coherent)) hs

/-- **An exchange**: the row it replaces, the token its call presented, and what
it leaves. -/
theorem row_of_exchange {env : AuthEnv} {crypto : Crypto} {s t : AuthState} {e : AuthEvent}
    (h : AuthStep env crypto s e t) (hs : SessionsInvariant env crypto s) {id : Uuid}
    (he : exchanged? e = some id) :
    ∃ refreshToken row row', exchangedToken? e = some refreshToken ∧
      s.store.refreshTokens.get? id = some row ∧ row.tokenHash = hashToken crypto refreshToken ∧
      t.store.refreshTokens.get? id = some row' ∧ row'.replacedById ≠ none := by
  have hchange := authChange_of_step h hs.coherent
  cases h with
  | tick | lookup | answer | rollback => cases he
  | @commit c req call g out store hc hfresh hrun =>
    cases call with
    | login | revoke | logout => cases he
    | rotate call =>
      obtain rfl := Option.some.inj he
      obtain ⟨db₀, now₀, hlook, hev⟩ := hs.coherent c _ _ hc
      obtain ⟨ht₀, -, refreshToken, rfl, hhash⟩ := lookup_rotate hlook
      obtain ⟨row, hrow, hfol⟩ := hev.token _ _ ht₀
      obtain ⟨row', hrow', -⟩ := (sessionsEvolve_of_change hchange).token _ _ hrow
      refine ⟨refreshToken, row, row', rfl, hrow, hfol.tokenHash_eq.trans hhash, hrow', ?_⟩
      cases hchange with
      | quiet he => cases he
      | login _ _ he => cases he
      | revoke he => cases he
      | @rotate _ _ _ _ _ _ _ _ token family tfree htoken _ _ _ _ ht =>
        have hid : token.id = call.storedToken.id := (Table.get?_eq_some.mp htoken).2
        rw [← hid] at htoken hrow'
        rw [ht, get?_rotated tfree htoken, if_pos rfl] at hrow'
        rw [← Option.some.inj hrow']
        simp [RefreshToken.replaceBy]

theorem exchanged_of_exchangedToken {e : AuthEvent} {refreshToken : String}
    (h : exchangedToken? e = some refreshToken) : ∃ id, exchanged? e = some id := by
  unfold exchangedToken? at h
  split at h
  · exact ⟨_, rfl⟩
  · cases h

/-- **The token a step exchanges is the one that was presented by the refresh that it
answers with tokens.** -/
theorem exchangedToken_iff_response {env : AuthEnv} {crypto : Crypto} {s t : AuthState}
    {e : AuthEvent} (h : AuthStep env crypto s e t) (hs : SessionsInvariant env crypto s)
    {refreshToken : String} :
    exchangedToken? e = some refreshToken ↔
      (∃ c, ended? e = some (c, .refresh refreshToken)) ∧
        ∃ tokens, response? crypto ⟨s, e, t⟩ = some (.tokens tokens) := by
  constructor
  · intro he
    refine ⟨?_, (exchanged_iff_response h).mp (exchanged_of_exchangedToken he)⟩
    unfold exchangedToken? at he
    split at he
    · next c refreshToken' _ _ _ =>
      obtain rfl := Option.some.inj he
      exact ⟨c, rfl⟩
    · cases he
  · rintro ⟨⟨c, hend⟩, hout⟩
    -- an exchange is of the token that its call presented
    obtain ⟨id, hid⟩ := (exchanged_iff_response h).mpr hout
    obtain ⟨refreshToken', -, -, he, -⟩ := row_of_exchange h hs hid
    unfold exchangedToken? at he
    split at he
    · obtain rfl := Option.some.inj he
      cases hend
      rfl
    · cases he

/-- A row that has been replaced stays so. -/
theorem not_findsUnreplaced_run {env : AuthEnv} {crypto : Crypto} {s t : AuthState}
    {tr : List (Transition AuthState AuthEvent)} (hrun : Run (AuthStep env crypto) s tr t)
    (hs : SessionsInvariant env crypto s) {id : Uuid} {row : RefreshToken} {e : AuthEvent}
    (hrow : s.store.refreshTokens.get? id = some row) (hrep : row.replacedById ≠ none)
    (he : exchanged? e = some id) : ¬ FindsUnreplaced e t.store := by
  intro hfinds
  obtain ⟨row', hrow', hfol⟩ := (sessionsEvolve_run hrun hs).token id row hrow
  obtain ⟨row'', hrow'', hnone⟩ := hfinds id he
  rw [hrow'] at hrow''
  obtain rfl := Option.some.inj hrow''
  exact hfol.replaced hrep hnone

/-- The token rows that a list of steps exchanges, in order. -/
def exchangedIn (tr : List (Transition AuthState AuthEvent)) : List Uuid :=
  tr.filterMap fun x => exchanged? x.event

/-- The presented tokens that a list of steps exchanges, in order. -/
def exchangedTokensIn (tr : List (Transition AuthState AuthEvent)) : List String :=
  tr.filterMap fun x => exchangedToken? x.event

theorem exchangedIn_nodup {env : AuthEnv} {crypto : Crypto} {s t : AuthState}
    {tr : List (Transition AuthState AuthEvent)} (hrun : Run (AuthStep env crypto) s tr t)
    (hs : SessionsInvariant env crypto s)
    (hfinds : ∀ x ∈ tr, FindsUnreplaced x.event x.pre.store) : (exchangedIn tr).Nodup := by
  refine hrun.nodup_filterMap (I := SessionsInvariant env crypto)
    (C := fun x => FindsUnreplaced x.event x.pre.store) sessionsInvariant_step ?_ hfinds hs
  intro x y mid id hI hx hmid _ hy hfindsy hex hey
  obtain ⟨-, -, row', -, -, -, hrow', hrep⟩ := row_of_exchange hx hI hex
  exact not_findsUnreplaced_run hmid (sessionsInvariant_step _ _ _ hx hI) hrow' hrep hey hfindsy

/-- One presented token is exchanged once: two rows with its digest are one row. -/
theorem exchangedTokensIn_nodup {env : AuthEnv} {crypto : Crypto} {s t : AuthState}
    {tr : List (Transition AuthState AuthEvent)} (hrun : Run (AuthStep env crypto) s tr t)
    (hs : SessionsInvariant env crypto s)
    (hfinds : ∀ x ∈ tr, FindsUnreplaced x.event x.pre.store) : (exchangedTokensIn tr).Nodup := by
  refine hrun.nodup_filterMap (I := SessionsInvariant env crypto)
    (C := fun x => FindsUnreplaced x.event x.pre.store) sessionsInvariant_step ?_ hfinds hs
  intro x y mid refreshToken hI hx hmid _ hy hfindsy hex hey
  have hpost := sessionsInvariant_step _ _ _ hx hI
  have hIy : SessionsInvariant env crypto y.pre :=
    hmid.invariant (I := SessionsInvariant env crypto) sessionsInvariant_step hpost
  obtain ⟨id, hid⟩ := exchanged_of_exchangedToken hex
  obtain ⟨id', hid'⟩ := exchanged_of_exchangedToken hey
  obtain ⟨tok, row, row₁, htok, hrow, hhash, hrow₁, hrep⟩ := row_of_exchange hx hI hid
  obtain ⟨tok', row', -, htok', hrow', hhash', -, -⟩ := row_of_exchange hy hIy hid'
  rw [hex] at htok
  rw [hey] at htok'
  obtain rfl := Option.some.inj htok
  obtain rfl := Option.some.inj htok'
  -- the row of `x` is still there when `y` starts, with the same digest
  obtain ⟨row₂, hrow₂, hfol₁⟩ := (sessionsEvolve_of_change
    (authChange_of_step hx hI.coherent)).token id row hrow
  obtain ⟨row₃, hrow₃, hfol₂⟩ := (sessionsEvolve_run hmid hpost).token id row₂ hrow₂
  have hsame : row₃.tokenHash = row'.tokenHash := by
    rw [hfol₂.tokenHash_eq, hfol₁.tokenHash_eq, hhash, hhash']
  obtain rfl := hIy.distinct id id' row₃ row' hrow₃ hrow' hsame
  exact not_findsUnreplaced_run hmid hpost hrow₁ hrep hid' hfindsy

/-! ### One token presented twice

A session is opened, its token is presented by two calls, and both rotations
commit. -/

namespace DoubleRefresh

open Transaction

/-- The refresh token of the login. -/
def firstToken : String := "AAAAAAAAAAAAAAAAAAAAAAAAAAAAAAAAAAAAAAAAAAA"

/-- The token of the first refresh. -/
def secondToken : String := "AQEBAQEBAQEBAQEBAQEBAQEBAQEBAQEBAQEBAQEBAQE"

/-- The token of the second refresh. -/
def thirdToken : String := "AgICAgICAgICAgICAgICAgICAgICAgICAgICAgICAgI"

/-- The SHA-256 of the first token. -/
def firstDigest : String := "0f007385b6f9d4b7eeb2748605afe1a984a0a3bfa3f014d09e2a784ce9e5cd1a"

/-- The SHA-256 of the second token. -/
def secondDigest : String := "56d5fa7333f6d747db42c239407e5da4c32f4c79f35d092b134fd35a402d9c5c"

/-- The SHA-256 of the third token. -/
def thirdDigest : String := "6c1d63bbdab437c54368cbbd8886a886a79ad977297e265eebf1f5f5f01533b9"

/-- The bcrypt hash of the password. -/
def passwordHash : String := "$2a$12$R9h/cIPz0gi.URNNX3kh2OPST9/PgBkqquzi.Ss7KIUgO2t0jWMUW"

/-- The access token of the login. -/
def accessToken : String :=
  "eyJhbGciOiJIUzI1NiIsInR5cCI6IkpXVCJ9." ++
    "eyJzdWIiOiIwMDAwMDAwMC0wMDAwLTAwMDAtMDAwMC0wMDAwMDAwMDAwMDIiLCJ0ZW5hbnRJZCI6IjAwMDAwMDAw" ++
    "LTAwMDAtMDAwMC0wMDAwLTAwMDAwMDAwMDAwMSIsInJvbGUiOiJWSUVXRVIiLCJlbWFpbCI6ImFuYUBleGFtcGxl" ++
    "LmNvbSIsImlhdCI6MCwiZXhwIjo5MDB9." ++
    "pRffCWUsBnvjEL1jTK39zY1-FnTue7j4WfEP_j8xbDs"

/-- One-to-one, with the SHA-256 digests of the three tokens. -/
def digests : Equiv.Perm String :=
  Equiv.swap firstToken firstDigest * Equiv.swap secondToken secondDigest *
    Equiv.swap thirdToken thirdDigest

/-- `compare` knows one password, and `sign` signs for one user at one time. -/
def crypto : Crypto where
  toLowerCase := String.toLower
  sha256Hex := digests
  compare := fun password hash => password == "abc123xyz" && hash == passwordHash
  sign := fun _ _ _ => accessToken

/-- A quarter of an hour, and thirty days. -/
def env : AuthEnv := ⟨900, 2592000⟩

/-- The tenant. -/
def tenant : Tenant := ⟨uuid 1, "acme"⟩

/-- Its user. -/
def user : User := ⟨uuid 2, uuid 1, "ana@example.com", passwordHash, .viewer, true⟩

/-- Nobody is logged in. -/
def database : Database where
  tenants := ⟨[tenant], by decide⟩
  users := ⟨[user], by decide⟩

/-- What the login and the two rotations draw. -/
def drawn₀ : AuthGenerated := ⟨uuid 10, uuid 11, firstToken, uuid 12⟩

/-- What the first refresh draws. -/
def drawn₁ : AuthGenerated := ⟨uuid 20, uuid 21, secondToken, uuid 22⟩

/-- What the second refresh draws. -/
def drawn₂ : AuthGenerated := ⟨uuid 30, uuid 31, thirdToken, uuid 32⟩

/-- The login. -/
def loginRequest : AuthRequest := .login "acme" "Ana@example.com" "abc123xyz"

/-- Both refreshes present the same token. -/
def refreshRequest : AuthRequest := .refresh firstToken

/-- What the login finds. -/
def loginCall : AuthCall := .login ⟨tenant, user⟩

/-- The row of the first token. -/
def openedRow : RefreshToken := ⟨uuid 11, uuid 10, firstDigest, false, none, 2592000000⟩

/-- What both refreshes find. -/
def rotateCall : AuthCall :=
  .rotate ⟨openedRow, ⟨uuid 10, uuid 2, false⟩, user⟩

/-- The session is open. -/
def opened : Database := (loginCall.transaction env crypto drawn₀ 0).after database

/-- The first refresh has replaced the token. -/
def rotated : Database := (rotateCall.transaction env crypto drawn₁ 0).after opened

/-- The second refresh has replaced it again. -/
def forked : Database := (rotateCall.transaction env crypto drawn₂ 0).after rotated

/-- What the login returns. -/
def session : AuthResponse := .session ⟨accessToken, firstToken, 900⟩ (toPublicUser user)

theorem loginLookup_ok : loginRequest.lookup crypto database 0 = .ok (some loginCall) := by
  decide +kernel

theorem refreshLookup_ok : refreshRequest.lookup crypto opened 0 = .ok (some rotateCall) := by
  decide

theorem login_ok :
    (loginCall.transaction env crypto drawn₀ 0).run database = .ok (session, opened) :=
  run_eq_after (by decide +kernel)

theorem rotate_ok : (rotateCall.transaction env crypto drawn₁ 0).run opened
    = .ok (.tokens ⟨accessToken, secondToken, 900⟩, rotated) :=
  run_eq_after (by decide +kernel)

theorem rotate_again_ok : (rotateCall.transaction env crypto drawn₂ 0).run rotated
    = .ok (.tokens ⟨accessToken, thirdToken, 900⟩, forked) :=
  run_eq_after (by decide +kernel)

/-- Before the login. -/
def s₀ : AuthState := .start database 0

/-- The login has looked up. -/
def s₁ : AuthState :=
  { s₀ with calls := Function.update s₀.calls 0 (.waiting loginRequest loginCall) }

/-- The session is open. -/
def s₂ : AuthState := { s₁ with store := opened, calls := Function.update s₁.calls 0 .finished }

/-- The first refresh has looked up. -/
def s₃ : AuthState :=
  { s₂ with calls := Function.update s₂.calls 1 (.waiting refreshRequest rotateCall) }

/-- The second refresh has looked up. -/
def s₄ : AuthState :=
  { s₃ with calls := Function.update s₃.calls 2 (.waiting refreshRequest rotateCall) }

/-- The first refresh has committed. -/
def s₅ : AuthState := { s₄ with store := rotated, calls := Function.update s₄.calls 1 .finished }

/-- The second refresh has committed, too. -/
def s₆ : AuthState := { s₅ with store := forked, calls := Function.update s₅.calls 2 .finished }

/-- The steps of the schedule. -/
def steps : List (Transition AuthState AuthEvent) :=
  [⟨s₀, .lookedUp 0 loginRequest loginCall, s₁⟩,
    ⟨s₁, .committed 0 loginRequest loginCall drawn₀ session, s₂⟩,
    ⟨s₂, .lookedUp 1 refreshRequest rotateCall, s₃⟩,
    ⟨s₃, .lookedUp 2 refreshRequest rotateCall, s₄⟩,
    ⟨s₄, .committed 1 refreshRequest rotateCall drawn₁
      (.tokens ⟨accessToken, secondToken, 900⟩), s₅⟩,
    ⟨s₅, .committed 2 refreshRequest rotateCall drawn₂
      (.tokens ⟨accessToken, thirdToken, 900⟩), s₆⟩]

theorem fresh₀ : drawn₀.Fresh crypto database := by
  refine ⟨rfl, rfl, ?_, ?_⟩ <;> decide

theorem fresh₁ : drawn₁.Fresh crypto opened := by
  refine ⟨?_, ?_, ?_, ?_⟩ <;> decide

theorem fresh₂ : drawn₂.Fresh crypto rotated := by
  refine ⟨?_, ?_, ?_, ?_⟩ <;> decide

/-- The schedule up to the first rotation. -/
theorem run_rotate : Run (AuthStep env crypto) s₀ (steps.take 5) s₅ := by
  have hlogin : AuthStep env crypto s₀ (.lookedUp 0 loginRequest loginCall) s₁ :=
    .lookup rfl loginLookup_ok
  have hopen : AuthStep env crypto s₁
      (.committed 0 loginRequest loginCall drawn₀ session) s₂ := .commit rfl fresh₀ login_ok
  have hfirst : AuthStep env crypto s₂ (.lookedUp 1 refreshRequest rotateCall) s₃ :=
    .lookup rfl refreshLookup_ok
  have hsecond : AuthStep env crypto s₃ (.lookedUp 2 refreshRequest rotateCall) s₄ :=
    .lookup rfl refreshLookup_ok
  have hrotate : AuthStep env crypto s₄ (.committed 1 refreshRequest rotateCall drawn₁
      (.tokens ⟨accessToken, secondToken, 900⟩)) s₅ := .commit rfl fresh₁ rotate_ok
  exact (((((Run.nil s₀).snoc hlogin).snoc hopen).snoc hfirst).snoc hsecond).snoc hrotate

theorem run : Run (AuthStep env crypto) s₀ steps s₆ :=
  run_rotate.snoc (.commit rfl fresh₂ rotate_again_ok)

theorem idle : s₀.Idle := TwoPhase.State.idle_start _ _

theorem noSessions : NoSessions s₀.store := ⟨rfl, rfl⟩

theorem get?_openedRow : s₄.store.refreshTokens.get? (uuid 11) = some openedRow := by
  decide

theorem exchangedIn_eq : exchangedIn steps = [uuid 11, uuid 11] := rfl

/-- The two live tokens. -/
theorem not_oneLiveToken : ¬ OneLiveToken s₆.store := by
  intro h
  have hfork := h ⟨uuid 10, uuid 2, false⟩ (Table.mem_def.mpr (by decide)) rfl
    ⟨uuid 21, uuid 10, secondDigest, false, none, 2592000000⟩ (by decide)
    ⟨uuid 31, uuid 10, thirdDigest, false, none, 2592000000⟩ (by decide) rfl rfl
  exact absurd hfork (by decide)

end DoubleRefresh

/-- **Refresh tokens are single-use exactly when no rotation finds its token
already replaced.** Along every run from a database without sessions, every
family is one chain of tokens, with at most one of them live while the family
is, and no row and no presented token is exchanged twice, if and only if every
rotation commits while the row it exchanges has no replacement yet. -/
theorem tokens_single_use_iff {env : AuthEnv} {crypto : Crypto} {s t : AuthState}
    {tr : List (Transition AuthState AuthEvent)} (hrun : Run (AuthStep env crypto) s tr t)
    (hidle : s.Idle) (hnone : NoSessions s.store) :
    ((∀ x ∈ tr, OneLiveToken x.post.store ∧ FamiliesChained x.post.store) ∧
        (exchangedIn tr).Nodup ∧ (exchangedTokensIn tr).Nodup) ↔
      ∀ x ∈ tr, FindsUnreplaced x.event x.pre.store := by
  have hs : SessionsInvariant env crypto s := sessionsInvariant_start hidle hnone
  have hchain : FamiliesChained s.store := by
    intro familyId
    rw [hnone.familyTokens]
    trivial
  have hiff := hrun.forall_post_iff (I := SessionsInvariant env crypto)
    (P := fun s => FamiliesChained s.store) (C := fun x => FindsUnreplaced x.event x.pre.store)
    sessionsInvariant_step
    (fun s e t h hI hp => chained_of_change_iff (authChange_of_step h hI.coherent) hI.sound hp)
    hs hchain
  constructor
  · intro h
    exact hiff.mp fun x hx => (h.1 x hx).2
  · intro hfinds
    have hpost := hiff.mpr hfinds
    refine ⟨?_, exchangedIn_nodup hrun hs hfinds, exchangedTokensIn_nodup hrun hs hfinds⟩
    intro x hx
    have hI := hrun.invariant_mem (I := SessionsInvariant env crypto) sessionsInvariant_step hs hx
    exact ⟨oneLiveToken_of_chained hI.2.sound (hpost x hx), hpost x hx⟩

/-- With the second rotation still to come the session is as it should be. -/
theorem tokens_single_use_iff_one_rotation :
    (∀ x ∈ DoubleRefresh.steps.take 5,
        OneLiveToken x.post.store ∧ FamiliesChained x.post.store) ∧
      (exchangedIn (DoubleRefresh.steps.take 5)).Nodup ∧
      (exchangedTokensIn (DoubleRefresh.steps.take 5)).Nodup := by
  refine (tokens_single_use_iff DoubleRefresh.run_rotate DoubleRefresh.idle
    DoubleRefresh.noSessions).mpr ?_
  intro x hx id he
  fin_cases hx <;> cases he
  exact ⟨_, DoubleRefresh.get?_openedRow, rfl⟩

/-- **Refresh tokens are not always single-use**: two calls that present one token
can both succeed, and the family then forks. -/
theorem tokens_not_always_single_use : ¬ ∀ (env : AuthEnv) (crypto : Crypto) (s t : AuthState)
    (tr : List (Transition AuthState AuthEvent)), Function.Injective crypto.sha256Hex →
    Run (AuthStep env crypto) s tr t → s.Idle → NoSessions s.store →
    (exchangedIn tr).Nodup ∨ OneLiveToken t.store := by
  intro h
  rcases h DoubleRefresh.env DoubleRefresh.crypto _ _ _ DoubleRefresh.digests.injective
    DoubleRefresh.run DoubleRefresh.idle DoubleRefresh.noSessions with honce | hlive
  · rw [DoubleRefresh.exchangedIn_eq] at honce
    exact absurd honce (by decide)
  · exact DoubleRefresh.not_oneLiveToken hlive

end BookingPlatform
