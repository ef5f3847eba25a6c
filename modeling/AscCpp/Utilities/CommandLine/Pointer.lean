import Mathlib.Data.Set.Function
import AscCpp.Core.Configuration.Lookup
import AscCpp.Library.SplitLoop
import AscCpp.Utilities.CommandLine.Options

/-!
# Pointer — one path language for the encoder and the two decoders

`childPath` writes the paths of the metadata, `parsePointer` reads the destinations of the command
line, and `Configuration.find` splits and unescapes the paths of a lookup by itself.

- `parsePointerByIndex_eq`, `findByIndex_eq`: both decoders by the indices of their loops.
- `parsePointer_ok_iff_findTokens`: the two read the same tokens.
- `pointers_correct`: paths and token lists.
-/

namespace AscCpp
namespace Utilities

open AscCpp.Core Library

/-! ## The loops by their indices -/

/-- `ParsePointer` by its indices; `std::string_view::npos` is `sizeMaximum`. -/
def parsePointerByIndex (path : ByteString) (fuel : Nat) :
    Option (Option (Result (List ByteString))) :=
  match path with
  | [] => some (some (.ok []))
  | first :: _ =>
    if first ≠ byte '/' then
      some (some (.error (commandLineError "A command-line destination must be a JSON Pointer")))
    else
      splitLoop sizeMaximum
        (fun finish start => if finish = sizeMaximum then sizeMaximum else finish - start)
        (byte '/')
        (fun tokens encoded => (unescapeToken
          (commandLineError "A command-line destination has an incomplete JSON Pointer escape")
          (commandLineError "A command-line destination has an invalid JSON Pointer escape")
          encoded).map fun token => tokens ++ [token])
        path fuel 1 []

/-- `Configuration::Find` by its indices. -/
def findByIndex (configuration : Configuration) (path : ByteString) (fuel : Nat) :
    Option (Option (Result ConfigurationValue)) :=
  match path with
  | [] => some (some (.ok configuration.value))
  | first :: _ =>
    if first ≠ byte '/' then
      some (some (.error
        { code := .invalidArgument
          message := "A non-empty configuration path must begin with '/'" }))
    else
      splitLoop sizeMaximum (fun separator tokenStart => separator - tokenStart) (byte '/')
        (fun current encodedToken =>
          match unescapePathToken encodedToken with
          | .error status => .error status
          | .ok token => findChild current token)
        path fuel 1 configuration.value

theorem foldlM_parsePointerTokens (pieces tokens : List ByteString) :
    pieces.foldlM (fun tokens encoded => (unescapeToken
        (commandLineError "A command-line destination has an incomplete JSON Pointer escape")
        (commandLineError "A command-line destination has an invalid JSON Pointer escape")
        encoded).map fun token => tokens ++ [token]) tokens =
      (parsePointerTokens pieces).map (tokens ++ ·) := by
  -- The loop appends where the recursion prepends.
  induction pieces generalizing tokens with
  | nil => simp [parsePointerTokens, Except.map, pure, Except.pure]
  | cons encoded rest ih =>
    rw [List.foldlM_cons, parsePointerTokens]
    cases unescapeToken
        (commandLineError "A command-line destination has an incomplete JSON Pointer escape")
        (commandLineError "A command-line destination has an invalid JSON Pointer escape")
        encoded with
    | error status => rfl
    | ok token =>
      have hnext := ih (tokens ++ [token])
      cases hrest : parsePointerTokens rest with
      | error status =>
        rw [hrest] at hnext
        exact hnext
      | ok below =>
        rw [hrest] at hnext
        exact hnext.trans (congrArg Except.ok (List.append_assoc tokens [token] below))

theorem foldlM_findFrom (pieces : List ByteString) (current : ConfigurationValue) :
    pieces.foldlM (fun current encodedToken =>
        match unescapePathToken encodedToken with
        | .error status => .error status
        | .ok token => findChild current token) current = findFrom current pieces := by
  induction pieces generalizing current with
  | nil => rfl
  | cons encodedToken rest ih =>
    rw [List.foldlM_cons, findFrom]
    cases unescapePathToken encodedToken with
    | error status => rfl
    | ok token =>
      simp only
      cases findChild current token with
      | error status => rfl
      | ok child => exact ih child

/-- By its indices the decoder of the command line copies no token from behind the end of the path,
and ends after at most one turn a byte. -/
theorem parsePointerByIndex_eq {path : ByteString} {fuel : Nat} (hsize : path.length < sizeMaximum)
    (hfuel : path.length < fuel) :
    parsePointerByIndex path fuel = some (some (parsePointer path)) := by
  rcases path with _ | ⟨first, rest⟩
  · rfl
  rw [parsePointerByIndex, parsePointer]
  split
  · rfl
  · refine Eq.trans (splitLoop_append (fun start finish _ hlt => if_neg (Nat.ne_of_lt hlt))
      (fun start => ?_) fuel [first] rest [] hsize (Nat.lt_of_succ_lt hfuel)) ?_
    · rw [if_pos rfl]
      exact Nat.sub_le _ _
    · rw [foldlM_parsePointerTokens]
      cases parsePointerTokens (rest.splitOn (byte '/')) <;> rfl

theorem findByIndex_eq (configuration : Configuration) {path : ByteString} {fuel : Nat}
    (hsize : path.length < sizeMaximum) (hfuel : path.length < fuel) :
    findByIndex configuration path fuel = some (some (configuration.find path)) := by
  rcases path with _ | ⟨first, rest⟩
  · rfl
  rw [findByIndex, Configuration.find]
  split
  · rfl
  · refine Eq.trans (splitLoop_append (fun start finish _ _ => rfl) (fun start => Nat.le_refl _)
      fuel [first] rest configuration.value hsize (Nat.lt_of_succ_lt hfuel)) ?_
    rw [foldlM_findFrom]

/-! ## The tokens of a lookup -/

/-- What `Configuration::Find` makes of a path when no child is missing. -/
def findTokens (path : ByteString) : Result (List ByteString) :=
  match path with
  | [] => .ok []
  | first :: rest =>
    if first ≠ byte '/' then
      .error { code := .invalidArgument
               message := "A non-empty configuration path must begin with '/'" }
    else
      (rest.splitOn (byte '/')).mapM unescapePathToken

theorem mapM_unescapePathToken_ok_iff {pieces tokens : List ByteString} :
    pieces.mapM unescapePathToken = .ok tokens ↔
      pieces.mapM pointerCodec.unescape = some tokens := by
  induction pieces generalizing tokens with
  | nil => simp [pure, Except.pure]
  | cons piece rest ih =>
    simp only [List.mapM_cons, Option.bind_eq_bind, Option.bind_eq_some_iff,
      Option.some.injEq, Result.bind_eq_ok_iff, pure, Except.pure, Except.ok.injEq, ← ih,
      unescapePathToken, unescapeToken_eq_ok_iff]

theorem findTokens_ok_iff {path : ByteString} {tokens : List ByteString} :
    findTokens path = .ok tokens ↔ canonicalPath tokens = path := by
  have hdecode : canonicalPath tokens = path ↔ pointerCodec.decode path = some tokens := by
    rw [pointerCodec.decode_eq_some_iff, canonicalPath_eq_encode, eq_comm]
  rw [hdecode]
  rcases path with _ | ⟨first, rest⟩
  · simp [findTokens, EscapeCodec.decode]
  · by_cases hfirst : first = byte '/'
    · simpa [findTokens, EscapeCodec.decode, hfirst] using mapM_unescapePathToken_ok_iff
    · simp [findTokens, EscapeCodec.decode, hfirst]

/-- The command line and the lookup read the same tokens from the same paths. -/
theorem parsePointer_ok_iff_findTokens {path : ByteString} {tokens : List ByteString} :
    parsePointer path = .ok tokens ↔ findTokens path = .ok tokens := by
  rw [parsePointer_ok_iff, findTokens_ok_iff]

/-- A lookup reads its tokens and goes down from child to child. -/
theorem findFrom_ok_iff_tokens {value node : ConfigurationValue} {pieces : List ByteString} :
    findFrom value pieces = .ok node ↔
      ∃ tokens, pieces.mapM unescapePathToken = .ok tokens ∧
        tokens.foldlM findChild value = .ok node := by
  -- Unescaping all the pieces first finds the same node: a failure stays a failure.
  induction pieces generalizing value with
  | nil => simp [findFrom, pure, Except.pure]
  | cons piece rest ih =>
    rw [findFrom]
    simp only [List.mapM_cons, Result.bind_eq_ok_iff, pure, Except.pure, Except.ok.injEq]
    cases unescapePathToken piece with
    | error status => simp
    | ok token =>
      simp only [Except.ok.injEq]
      cases hchild : findChild value token with
      | error status =>
        simp only [reduceCtorEq, false_iff]
        rintro ⟨tokens, ⟨_, rfl, below, _, rfl⟩, hfold⟩
        rw [List.foldlM_cons, hchild] at hfold
        cases hfold
      | ok child =>
        simp only
        rw [ih]
        constructor
        · rintro ⟨below, hbelow, hfold⟩
          refine ⟨token :: below, ⟨token, rfl, below, hbelow, rfl⟩, ?_⟩
          rw [List.foldlM_cons, hchild]
          exact hfold
        · rintro ⟨tokens, ⟨_, rfl, below, hbelow, rfl⟩, hfold⟩
          rw [List.foldlM_cons, hchild] at hfold
          exact ⟨below, hbelow, hfold⟩

theorem find_ok_iff_tokens {configuration : Configuration} {path : ByteString}
    {node : ConfigurationValue} :
    configuration.find path = .ok node ↔
      ∃ tokens, findTokens path = .ok tokens ∧
        tokens.foldlM findChild configuration.value = .ok node := by
  rcases path with _ | ⟨first, rest⟩
  · simp [Configuration.find, findTokens, pure, Except.pure]
  · rw [Configuration.find, findTokens]
    split
    · simp
    · exact findFrom_ok_iff_tokens

/-! ## Paths and token lists -/

/-- The path of a list of keys, built by `ChildPath` from the root. -/
def pathOfKeys (keys : List ByteString) : ByteString :=
  keys.foldl childPath []

/-- `childPath` and `parsePointer` invert each other between all key lists and the accepted paths,
so that two nodes of one tree never share a path; and a lookup succeeds on the tokens that the
command line reads, when they lead down to a node.  Neither decoder leaves its path. -/
theorem pointers_correct :
    (∀ keys, parsePointer (pathOfKeys keys) = .ok keys) ∧
    (∀ path tokens, parsePointer path = .ok tokens → pathOfKeys tokens = path) ∧
    Set.BijOn pathOfKeys Set.univ {path | ∃ tokens, parsePointer path = .ok tokens} ∧
    (∀ value tokens tokens' node node', NodeAt value tokens node → NodeAt value tokens' node' →
      pathOfKeys tokens = pathOfKeys tokens' → tokens = tokens' ∧ node = node') ∧
    (∀ path index, childPathOfIndex path index = childPath path (stdToString index)) ∧
    (∀ path tokens, parsePointer path = .ok tokens ↔ findTokens path = .ok tokens) ∧
    (∀ (configuration : Configuration) path node, configuration.find path = .ok node ↔
      ∃ tokens, findTokens path = .ok tokens ∧
        tokens.foldlM findChild configuration.value = .ok node) ∧
    (∀ path fuel, path.length < sizeMaximum → path.length < fuel →
      parsePointerByIndex path fuel = some (some (parsePointer path)) ∧
        ∀ configuration, findByIndex configuration path fuel =
          some (some (configuration.find path))) := by
  have hdecode : ∀ keys, parsePointer (pathOfKeys keys) = .ok keys :=
    fun keys => parsePointer_ok_iff.2 rfl
  have hrebuild : ∀ path tokens, parsePointer path = .ok tokens → pathOfKeys tokens = path :=
    fun path tokens h => parsePointer_ok_iff.1 h
  refine ⟨hdecode, hrebuild, ⟨?_, ?_, ?_⟩, ?_, childPathOfIndex_eq, ?_, ?_, ?_⟩
  · intro keys _
    exact ⟨keys, hdecode keys⟩
  · intro keys _ keys' _ hpath
    exact canonicalPath_injective hpath
  · rintro path ⟨tokens, htokens⟩
    exact ⟨tokens, Set.mem_univ _, hrebuild path tokens htokens⟩
  -- One path names one node, because it determines the tokens.
  · intro value tokens tokens' node node' hnode hnode' hpath
    have htokens : tokens = tokens' := canonicalPath_injective hpath
    subst htokens
    exact ⟨rfl, hnode.functional hnode'⟩
  · exact fun path tokens => parsePointer_ok_iff_findTokens
  · exact fun configuration path node => find_ok_iff_tokens
  · intro path fuel hsize hfuel
    exact ⟨parsePointerByIndex_eq hsize hfuel,
      fun configuration => findByIndex_eq configuration hsize hfuel⟩

end Utilities
end AscCpp
