/-!
# The request code of a TypeScript client

The same file belongs to every client: the class `Client`, which sends requests, and the class
`ApiError`, which every unsuccessful response becomes.
-/

namespace ClientGen.TypeScript

/-- The lines of the request code. -/
def requestLines : List String := [
  "export type BodyKind = \"json\" | \"form\" | \"text\" | \"binary\" | \"unknown\";",
  "export type ResponseKind = \"json\" | \"text\" | \"binary\" | \"none\";",
  "",
  "export interface ClientOptions \x7b",
  "  baseUrl: string;",
  "  headers?: Record<string, string>;",
  "  fetch?: typeof fetch;",
  "\x7d",
  "",
  "export interface RequestOptions \x7b",
  "  method: string;",
  "  path: string;",
  "  query?: Record<string, unknown>;",
  "  headers?: Record<string, unknown>;",
  "  body?: unknown;",
  "  bodyKind?: BodyKind;",
  "  contentType?: string;",
  "  responseKind?: ResponseKind;",
  "\x7d",
  "",
  "export class ApiError extends Error \x7b",
  "  readonly status: number;",
  "  readonly statusText: string;",
  "  readonly body: unknown;",
  "",
  "  constructor(status: number, statusText: string, body: unknown) \x7b",
  "    super(\x60HTTP $\x7bstatus\x7d: $\x7bstatusText\x7d\x60);",
  "    this.name = \"ApiError\";",
  "    this.status = status;",
  "    this.statusText = statusText;",
  "    this.body = body;",
  "  \x7d",
  "\x7d",
  "",
  "function appendQuery(url: URL, query: Record<string, unknown> | undefined): void \x7b",
  "  if (!query) \x7b",
  "    return;",
  "  \x7d",
  "  for (const [key, value] of Object.entries(query)) \x7b",
  "    if (value === undefined || value === null) \x7b",
  "      continue;",
  "    \x7d",
  "    if (Array.isArray(value)) \x7b",
  "      for (const item of value) \x7b",
  "        url.searchParams.append(key, String(item));",
  "      \x7d",
  "    \x7d else \x7b",
  "      url.searchParams.append(key, String(value));",
  "    \x7d",
  "  \x7d",
  "\x7d",
  "",
  "function encodeBody(options: RequestOptions, headers: Headers): BodyInit | undefined \x7b",
  "  const \x7b body, bodyKind, contentType \x7d = options;",
  "  if (body === undefined) \x7b",
  "    return undefined;",
  "  \x7d",
  "  const isMultipart = contentType?.toLowerCase().startsWith(\"multipart/\") ?? false;",
  "  if (contentType && !isMultipart && !headers.has(\"content-type\")) \x7b",
  "    headers.set(\"content-type\", contentType);",
  "  \x7d",
  "  switch (bodyKind) \x7b",
  "    case \"form\": \x7b",
  "      const entries = Object.entries(body as Record<string, unknown>).filter(",
  "        ([, value]) => value !== undefined && value !== null,",
  "      );",
  "      if (isMultipart) \x7b",
  "        const form = new FormData();",
  "        for (const [key, value] of entries) \x7b",
  "          form.append(key, value instanceof Blob ? value : String(value));",
  "        \x7d",
  "        return form;",
  "      \x7d",
  "      const params = new URLSearchParams();",
  "      for (const [key, value] of entries) \x7b",
  "        params.append(key, String(value));",
  "      \x7d",
  "      return params;",
  "    \x7d",
  "    case \"text\":",
  "      return String(body);",
  "    case \"binary\":",
  "      return body as BodyInit;",
  "    default:",
  "      if (!headers.has(\"content-type\")) \x7b",
  "        headers.set(\"content-type\", \"application/json\");",
  "      \x7d",
  "      return JSON.stringify(body);",
  "  \x7d",
  "\x7d",
  "",
  "async function decodeBody(response: Response, kind: ResponseKind): Promise<unknown> \x7b",
  "  if (response.status === 204 || kind === \"none\") \x7b",
  "    return undefined;",
  "  \x7d",
  "  switch (kind) \x7b",
  "    case \"binary\":",
  "      return response.blob();",
  "    case \"text\":",
  "      return response.text();",
  "    default: \x7b",
  "      const text = await response.text();",
  "      return text.length > 0 ? JSON.parse(text) : undefined;",
  "    \x7d",
  "  \x7d",
  "\x7d",
  "",
  "export class Client \x7b",
  "  readonly baseUrl: string;",
  "  private readonly defaultHeaders: Record<string, string>;",
  "  private readonly fetchImpl: typeof fetch;",
  "",
  "  constructor(options: ClientOptions) \x7b",
  "    this.baseUrl = options.baseUrl.replace(/\\/+$/, \"\");",
  "    this.defaultHeaders = options.headers ?? \x7b\x7d;",
  "    this.fetchImpl = options.fetch ?? globalThis.fetch.bind(globalThis);",
  "  \x7d",
  "",
  "  async request<T>(options: RequestOptions): Promise<T> \x7b",
  "    const url = new URL(this.baseUrl + options.path);",
  "    appendQuery(url, options.query);",
  "",
  "    const headers = new Headers(this.defaultHeaders);",
  "    for (const [key, value] of Object.entries(options.headers ?? \x7b\x7d)) \x7b",
  "      if (value !== undefined && value !== null) \x7b",
  "        headers.set(key, String(value));",
  "      \x7d",
  "    \x7d",
  "    const body = encodeBody(options, headers);",
  "",
  "    const response = await this.fetchImpl(url, \x7b",
  "      method: options.method,",
  "      headers,",
  "      body,",
  "    \x7d);",
  "    if (!response.ok) \x7b",
  "      let errorBody: unknown;",
  "      try \x7b",
  "        errorBody = await response.text();",
  "      \x7d catch \x7b",
  "        errorBody = undefined;",
  "      \x7d",
  "      throw new ApiError(response.status, response.statusText, errorBody);",
  "    \x7d",
  "    return (await decodeBody(response, options.responseKind ?? \"json\")) as T;",
  "  \x7d",
  "\x7d"]

/-- **The request code.** -/
def requestFile : String :=
  String.join (requestLines.map (· ++ "\n"))

end ClientGen.TypeScript
