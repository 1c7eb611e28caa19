/-!
# Standard ignore patterns

Build output, caches, metadata of version control and editors, and packaging artifacts, which
every walk of a project leaves out.
-/

namespace ImportContext

/-- Byte-compiled files. -/
def compiledFilePatterns : List String :=
  ["__pycache__/", "*.py[cod]", "*$py.class"]

/-- Packaging. -/
def packagingPatterns : List String :=
  [".Python", "build/", "develop-eggs/", "dist/", "downloads/", "eggs/", ".eggs/", "parts/",
    "sdist/", "var/", "wheels/", "pip-wheel-metadata/", "share/python-wheels/", "*.egg-info/",
    ".installed.cfg", "*.egg", "MANIFEST", "*.manifest", "*.spec", "pip-log.txt",
    "pip-delete-this-directory.txt", "__pypackages__/"]

/-- Test and coverage output. -/
def testOutputPatterns : List String :=
  ["htmlcov/", ".tox/", ".nox/", ".coverage", ".coverage.*", ".cache", "nosetests.xml",
    "coverage.xml", "*.cover", "*.py,cover", ".hypothesis/", ".pytest_cache/"]

/-- Type checkers. -/
def typeCheckerPatterns : List String :=
  [".mypy_cache/", ".dmypy.json", "dmypy.json", ".pyre/", ".pytype/", "cython_debug/"]

/-- Message catalogues. -/
def catalogPatterns : List String :=
  ["*.mo", "*.pot"]

/-- Framework leftovers. -/
def frameworkPatterns : List String :=
  ["*.log", "local_settings.py", "db.sqlite3", "db.sqlite3-journal", "instance/",
    ".webassets-cache", ".scrapy", "docs/_build/", "target/", ".ipynb_checkpoints",
    "profile_default/", "ipython_config.py", "celerybeat-schedule", "celerybeat.pid",
    "*.sage.py", "/site"]

/-- Environments and tool settings. -/
def environmentPatterns : List String :=
  [".python-version", "Pipfile.lock", "poetry.lock", ".pypoetry/", ".pdm.toml", ".env", ".venv",
    "env/", "venv/", "ENV/", "env.bak/", "venv.bak/", ".spyderproject", ".spyproject",
    ".ropeproject"]

/-- Version control. -/
def versionControlPatterns : List String :=
  [".git/", ".hg/", ".svn/"]

/-- Editors and operating systems. -/
def editorPatterns : List String :=
  [".vscode/", ".idea/", "*.swp", "*.swo", "*~", ".DS_Store", ".DS_Store?", "._*",
    ".Spotlight-V100", ".Trashes", "ehthumbs.db", "[Tt]humbs.db"]

/-- Scratch files. -/
def scratchPatterns : List String :=
  ["*.tmp", "*.bak", "logs/"]

/-- The patterns that are always in force. -/
def standardPatterns : List String :=
  compiledFilePatterns ++ packagingPatterns ++ testOutputPatterns ++ typeCheckerPatterns ++
    catalogPatterns ++ frameworkPatterns ++ environmentPatterns ++ versionControlPatterns ++
    editorPatterns ++ scratchPatterns

end ImportContext
