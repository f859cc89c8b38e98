namespace RuleTables.Cli.Develop

def command (interpreter : String) (arguments : List String) : List String :=
  [interpreter, "-m", "uvicorn", "dmn_rules.main:app", "--reload", "--host", "127.0.0.1", "--port",
    "8000"] ++ arguments

end RuleTables.Cli.Develop
