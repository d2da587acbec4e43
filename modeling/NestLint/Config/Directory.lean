import NestLint.Dict
import NestLint.Files.Path

/-!
# The directory of the user

Where options and projects are kept unless something else is said: below the directory that the
system has for such things, or below the home directory.

The directory is the one of `_get_default_user_dir`.
-/

namespace NestLint.Directory

/-- The platform that keeps the settings of programs elsewhere. -/
def windows : String := "win32"

/-- The name of the directory for the program. -/
def programName : String := "ifcollapse"

/-- The home directory where the environment names none. -/
def fallbackHome : FilePath := .ofText "/root"

/-- The home directory. A name that would have to be looked up itself is none. -/
def home? (environment : Dict String) : Option FilePath :=
  match Dict.get? environment "HOME" with
  | none => some fallbackHome
  | some text =>
    let cs := (text.toList.reverse.dropWhile (· == '/')).reverse
    if cs.head? = some '~' then none
    else some (.ofText (if cs.isEmpty then "/" else String.ofList cs))

/-- A directory that the environment names, unless the name is empty. -/
def named? (environment : Dict String) (name : String) : Option FilePath :=
  match Dict.get? environment name with
  | none => none
  | some text => if text = "" then none else some (.ofText text)

/-- The directory that holds the settings of programs. -/
def settings? (platform : String) (environment : Dict String) : Option FilePath :=
  if platform = windows then
    (named? environment "APPDATA").or ((home? environment).map fun home => (home.child "AppData").child "Roaming")
  else (named? environment "XDG_CONFIG_HOME").or ((home? environment).map fun home => home.child ".config")

/-- The directory of the user. -/
def user? (platform : String) (environment : Dict String) : Option FilePath :=
  (settings? platform environment).map fun settings => settings.child programName

/-- What is reported where there is no home directory. -/
def noHomeMessage : String := "Could not determine home directory."

end NestLint.Directory
