-- The arguments of the command line: options that concern every command, the
-- command, and its one argument.

namespace StackLang.Command

inductive Action where
  | sim
  | dump
deriving DecidableEq, Repr

def Action.ofName? : String → Option Action
  | "sim" => some .sim
  | "dump" => some .dump
  | _ => none

-- What is asked for.
inductive Request where
  | version
  | act (action : Action) (file : String) (logLevel : Option String)
deriving DecidableEq, Repr

-- The options met so far. The last log level counts.
structure Options where
  version : Bool
  logLevel : Option String

-- The arguments after an option, and the options with it.
abbrev Taken := Option (Options × List String)

-- A log level that stands at the front of the arguments.
def takeLevel (opts : Options) : List String → Taken
  | [] => none
  | value :: rest => some ({ opts with logLevel := some value }, rest)

-- Short options may be joined; what follows an `l` in the same argument is its value.
def takeShort (opts : Options) (rest : List String) : List Char → Taken
  | [] => some (opts, rest)
  | 'v' :: letters => takeShort { opts with version := true } rest letters
  | 'l' :: [] => takeLevel opts rest
  | 'l' :: value => takeLevel opts (String.ofList value :: rest)
  | _ => none

-- A long option may have its value after an equals sign.
def takeLong (opts : Options) (rest : List String) (arg : List Char) : Taken :=
  let name := String.ofList (arg.takeWhile (· != '='))
  match arg.dropWhile (· != '=') with
  | [] =>
      if name = "--version" then some ({ opts with version := true }, rest)
      else if name = "--log-level" then takeLevel opts rest
      else none
  | _ :: value =>
      if name = "--log-level" then takeLevel opts (String.ofList value :: rest) else none

-- An argument that starts with a hyphen is an option, unless it is only that.
def takeOption (opts : Options) (rest : List String) : List Char → Option Taken
  | '-' :: '-' :: name => some (takeLong opts rest ('-' :: '-' :: name))
  | '-' :: letter :: letters => some (takeShort opts rest (letter :: letters))
  | _ => none

theorem takeLevel_length {opts after : Options} {args rest : List String}
    (h : takeLevel opts args = some (after, rest)) : rest.length + 1 = args.length := by
  cases args with
  | nil => cases h
  | cons value tail =>
      simp only [takeLevel, Option.some.injEq, Prod.mk.injEq] at h
      rw [← h.2]
      rfl

theorem takeShort_length {opts after : Options} {args rest : List String} {letters : List Char}
    (h : takeShort opts args letters = some (after, rest)) : rest.length ≤ args.length := by
  fun_induction takeShort opts args letters with
  | case1 => simp_all
  | case2 => simp_all
  | case3 =>
      have := takeLevel_length h
      omega
  | case4 =>
      have := takeLevel_length h
      simp only [List.length_cons] at this
      omega
  | case5 => cases h

theorem takeLong_length {opts after : Options} {args rest : List String} {arg : List Char}
    (h : takeLong opts args arg = some (after, rest)) : rest.length ≤ args.length := by
  simp only [takeLong] at h
  split at h
  · split at h
    · simp only [Option.some.injEq, Prod.mk.injEq] at h
      exact Nat.le_of_eq (by rw [h.2])
    · split at h
      · have := takeLevel_length h
        omega
      · cases h
  · split at h
    · have := takeLevel_length h
      simp only [List.length_cons] at this
      omega
    · cases h

theorem takeOption_length {opts after : Options} {args rest : List String} {arg : List Char}
    (h : takeOption opts args arg = some (some (after, rest))) : rest.length ≤ args.length := by
  unfold takeOption at h
  split at h
  · exact takeLong_length (Option.some.inj h)
  · exact takeShort_length (Option.some.inj h)
  · cases h

-- The options in front of the first other argument, or of `--`.
def takeOptions (opts : Options) : List String → Taken
  | [] => some (opts, [])
  | arg :: rest =>
      if arg = "--" then some (opts, rest)
      else match _h : takeOption opts rest arg.toList with
        | none => some (opts, arg :: rest)
        | some none => none
        | some (some (opts, rest')) => takeOptions opts rest'
termination_by args => args.length
decreasing_by
  have := takeOption_length _h
  simp only [List.length_cons]
  omega

-- A command takes one argument and has no options; after `--` an argument may
-- start with a hyphen.
def takeArgument (found : List String) : List String → Option String
  | [] =>
      match found with
      | [file] => some file
      | _ => none
  | arg :: rest =>
      if arg = "--" then
        match found ++ rest with
        | [file] => some file
        | _ => none
      else match arg.toList with
        | '-' :: _ :: _ => none
        | _ => takeArgument (found ++ [arg]) rest

-- No path has a NUL character in it.
def isPathText (file : String) : Bool :=
  !file.toList.contains (Char.ofNat 0)

-- A command that is not known but starts as an option does is read as options
-- once more, which can still ask for the version.
def request? (args : List String) : Option Request :=
  match takeOptions ⟨false, none⟩ args with
  | none => none
  | some (opts, rest) =>
      if opts.version then some .version
      else match rest with
        | [] => none
        | name :: rest =>
            match Action.ofName? name with
            | some action =>
                ((takeArgument [] rest).filter isPathText).map fun file =>
                  .act action file opts.logLevel
            | none =>
                match takeOptions ⟨false, none⟩ (name :: rest) with
                | some (opts, _) => if opts.version then some .version else none
                | none => none

end StackLang.Command
